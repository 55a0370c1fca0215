/-
  What a reduction has applied when it comes to its end.

  It has applied the operators of the postfix program, in that order (`Traced.operators_reduce`):
  one token keeps the applications and the queue of the conversion in step, hence so does a list of
  tokens. With the accounts of the conversion this is a law of conservation (`reduce_conserves`):
  each operator token is applied once or left waiting, each number is consumed or left over, and
  each open parenthesis is closed or left waiting.
-/
import InfixArithmetic.Proofs.Counting
import InfixArithmetic.Real.Literal

namespace InfixArithmetic

/-! ## Operators of lists -/

section

variable {α : Type}

def Token.operator? : Token α → Option Operator
  | operator op => some op
  | _ => none

def PostfixItem.operator? : PostfixItem α → Option Operator
  | operator op => some op
  | number _ => none

def Pending.operator? : Pending → Option Operator
  | operator op => some op
  | openParen => none

/-- The operator tokens of a list. -/
def Token.operators (tokens : List (Token α)) : List Operator := tokens.filterMap operator?

/-- The operators on the pending stack, the top first. -/
def Pending.operators (pending : List Pending) : List Operator := pending.filterMap operator?

/-- The operators that are queued. -/
def Conversion.operators (conversion : Conversion α) : List Operator :=
  conversion.queue.filterMap PostfixItem.operator?

/-- The operators that are applied, first one first. -/
def Traced.operators (x : Traced α) : List Operator := x.trace.map Applied.operator

theorem Token.countP_operators (p : Operator → Bool) (tokens : List (Token α)) :
    (operators tokens).countP p = tokens.countP (isOperator p) := by
  rw [operators, List.countP_filterMap]
  refine List.countP_congr fun token _ => ?_
  cases token <;> simp [operator?, isOperator]

theorem Pending.countP_operators (p : Operator → Bool) (pending : List Pending) :
    (operators pending).countP p = pending.countP (isOperator p) := by
  rw [operators, List.countP_filterMap]
  refine List.countP_congr fun entry _ => ?_
  cases entry <;> simp [operator?, isOperator]

theorem Conversion.countP_operators (p : Operator → Bool) (conversion : Conversion α) :
    conversion.operators.countP p = conversion.queue.countP (PostfixItem.isOperator p) := by
  rw [operators, List.countP_filterMap]
  refine List.countP_congr fun item _ => ?_
  cases item <;> simp [PostfixItem.operator?, PostfixItem.isOperator]

/-- An entry is an operator or an open parenthesis. -/
theorem Pending.length_eq (pending : List Pending) :
    pending.length = pending.countP isOpen + (operators pending).length := by
  induction pending with
  | nil => rfl
  | cons entry pending ih =>
    cases entry with
    | openParen =>
      rw [List.length_cons, List.countP_cons_of_pos rfl, ih]
      show _ = _ + (operators pending).length
      omega
    | operator op =>
      rw [List.length_cons, List.countP_cons_of_neg Bool.false_ne_true, ih]
      show _ = _ + ((operators pending).length + 1)
      omega

theorem Conversion.operators_release (conversion : Conversion α) (leaves : Operator → Bool) :
    (conversion.release leaves).operators =
      conversion.operators ++ (Pending.release leaves conversion.pending).1 := by
  show List.filterMap _ (conversion.queue ++ _) = _
  rw [List.filterMap_append, List.filterMap_map]
  exact congrArg _ List.filterMap_some

theorem Traced.operators_single (state : Stacks α) : state.single.operators = [] := by
  rw [operators, Stacks.trace_single]
  rfl

end

variable {α : Type} [Arithmetic α]

/-! ## Applications and the postfix program -/

namespace Traced

theorem operators_bind_of_ok {β γ : Type} {x : Traced β} {b : β} (h : x.result = .ok b)
    (f : β → Traced γ) : (x >>= f).operators = x.operators ++ (f b).operators := by
  rw [bind_of_ok h, operators, operators, operators, List.map_append]

theorem operators_applyTop {op : Operator} {operands rest : List α}
    (h : (op.applyTop operands).result = .ok rest) : (op.applyTop operands).operators = [op] := by
  rcases op.applyTop_cases operands with ⟨-, heq⟩ | ⟨value, below, heq⟩
  · rw [heq] at h
    cases h
  · rw [heq]
    rfl

/-- What is released is applied. -/
theorem operators_resolve {leaves : Operator → Bool} {operands : List α} {pending : List Pending}
    {state : Stacks α} (h : (Stacks.resolve leaves operands pending).result = .ok state) :
    (Stacks.resolve leaves operands pending).operators = (Pending.release leaves pending).1 := by
  induction pending generalizing operands with
  | nil => rfl
  | cons entry pending ih =>
    cases entry with
    | openParen => rfl
    | operator op =>
      cases hleaves : leaves op with
      | false =>
        rw [Stacks.resolve_of_stays leaves hleaves]
        simp only [Pending.release, hleaves]
        rfl
      | true =>
        rw [Stacks.resolve_of_leaves leaves hleaves] at h ⊢
        rw [result_bind_eq_ok_iff] at h
        obtain ⟨rest, happly, hrest⟩ := h
        rw [operators_bind_of_ok happly, operators_applyTop happly, ih hrest]
        simp only [Pending.release, hleaves, if_true]
        rfl

end Traced

namespace Conversion

theorem outcome_eq_ok_iff {conversion : Conversion α} {state : Stacks α} :
    conversion.outcome = .ok state ↔
      conversion.stray = false ∧ runPostfix conversion.queue [] = .ok state.operands ∧
        conversion.pending = state.pending := by
  cases hs : conversion.stray with
  | true =>
    rw [outcome_of_stray hs, bind_eq_ok_iff]
    constructor
    · rintro ⟨operands, -, h⟩
      cases h
    · rintro ⟨h, -⟩
      cases h
  | false =>
    rw [outcome_of_not_stray hs, bind_eq_ok_iff]
    constructor
    · rintro ⟨operands, hrun, h⟩
      cases h
      exact ⟨rfl, hrun, rfl⟩
    · rintro ⟨-, hrun, hpending⟩
      exact ⟨state.operands, hrun, by rw [hpending]⟩

/-- One token queues what it applies. -/
theorem operators_step {conversion : Conversion α} {state state' : Stacks α} {token : Token α}
    (h : conversion.outcome = .ok state) (hstep : (state.step token).result = .ok state') :
    (conversion.step token).operators = conversion.operators ++ (state.step token).operators := by
  obtain ⟨hs, -, hpending⟩ := outcome_eq_ok_iff.mp h
  cases token with
  | number value =>
    rw [step_number hs, operators, List.filterMap_append]
    rfl
  | openParen =>
    rw [step_openParen hs]
    exact (List.append_nil _).symm
  | operator incoming =>
    rw [Stacks.step_operator, Traced.result_bind_eq_ok_iff] at hstep
    obtain ⟨middle, hresolve, -⟩ := hstep
    have hqueue : (conversion.step (.operator incoming)).operators =
        (conversion.release (·.resolvesBefore incoming)).operators := by
      rw [step_operator hs]
      rfl
    rw [hqueue, operators_release, Stacks.step_operator, Traced.operators_bind_of_ok hresolve,
      Traced.operators_resolve hresolve, hpending]
    exact congrArg _ (List.append_nil _).symm
  | closeParen =>
    rw [Stacks.step_closeParen, Traced.result_bind_eq_ok_iff] at hstep
    obtain ⟨middle, hresolve, hclose⟩ := hstep
    have hqueue : (conversion.step .closeParen).operators =
        (conversion.release fun _ => true).operators := by
      cases hrest : (conversion.release fun _ => true).pending with
      | nil =>
        rw [step_closeParen_of_nil hs hrest]
        rfl
      | cons entry rest =>
        rw [step_closeParen hs hrest]
        rfl
    have htrace : middle.close.operators = [] := by
      rw [Traced.operators, Stacks.trace_close]
      rfl
    rw [hqueue, operators_release, Stacks.step_closeParen, Traced.operators_bind_of_ok hresolve,
      Traced.operators_resolve hresolve, htrace, List.append_nil, hpending]

/-- A list of tokens queues what it applies. -/
theorem operators_foldl {conversion : Conversion α} {state state' : Stacks α}
    {tokens : List (Token α)} (h : conversion.outcome = .ok state)
    (hrun : (state.run tokens).result = .ok state') :
    (tokens.foldl step conversion).operators =
      conversion.operators ++ (state.run tokens).operators := by
  induction tokens generalizing conversion state with
  | nil => exact (List.append_nil _).symm
  | cons token tokens ih =>
    rw [Stacks.run_cons, Traced.result_bind_eq_ok_iff] at hrun
    obtain ⟨middle, hstep, hrest⟩ := hrun
    have hmiddle : (conversion.step token).outcome = .ok middle := by
      rw [outcome_step, h]
      exact hstep
    rw [List.foldl_cons, ih hmiddle hrest, operators_step h hstep, Stacks.run_cons,
      Traced.operators_bind_of_ok hstep, List.append_assoc]

end Conversion

/-- A reduction that comes to its end has applied the postfix program. -/
theorem Traced.operators_reduce {tokens : List (Token α)} {state : Stacks α}
    (h : (Conversion.ofTokens tokens).outcome = .ok state) :
    (reduce tokens).operators = (Conversion.ofTokens tokens).operators := by
  have hs := (Conversion.outcome_eq_ok_iff.mp h).1
  rw [Conversion.outcome_ofTokens, result_bind_eq_ok_iff] at h
  obtain ⟨last, hrun, hresolve⟩ := h
  have hempty : (({} : Conversion α)).outcome = .ok .empty := rfl
  have hlast : (tokens.foldl Conversion.step {}).outcome = .ok last := by
    rw [Conversion.outcome_foldl, hempty]
    exact hrun
  have hpending := (Conversion.outcome_eq_ok_iff.mp hlast).2.2
  rw [Conversion.ofTokens_of_closesWithin (Conversion.stray_ofTokens.mp hs),
    Conversion.operators_release, Conversion.operators_foldl hempty hrun, hpending, reduce,
    operators_bind_of_ok hrun, Stacks.finish, operators_bind_of_ok hresolve,
    operators_resolve hresolve, operators_single, List.append_nil]
  rfl

/-! ## Conservation -/

section

variable {tokens : List (Token α)} {state : Stacks α}

/-- Each operator token is applied or left waiting, and none is both. -/
theorem operators_perm (h : (Conversion.ofTokens tokens).outcome = .ok state) :
    ((reduce tokens).operators ++ Pending.operators state.pending).Perm
      (Token.operators tokens) := by
  obtain ⟨hs, -, hpending⟩ := Conversion.outcome_eq_ok_iff.mp h
  have haccounts := Conversion.accounts_ofTokens (Conversion.stray_ofTokens.mp hs)
  rw [List.perm_iff_count]
  intro op
  have hop := haccounts.operators (· == op)
  rw [List.count_append, List.count_eq_countP, List.count_eq_countP, List.count_eq_countP,
    Traced.operators_reduce h, Conversion.countP_operators, Pending.countP_operators,
    Token.countP_operators, ← hpending]
  exact hop

/-- What is left of the operands is what no binary operator has consumed. -/
theorem length_operands (h : (Conversion.ofTokens tokens).outcome = .ok state) :
    state.operands.length + (reduce tokens).operators.countP Operator.isBinary =
      tokens.countP Token.isNumber := by
  obtain ⟨hs, hrun, -⟩ := Conversion.outcome_eq_ok_iff.mp h
  have haccounts := Conversion.accounts_ofTokens (Conversion.stray_ofTokens.mp hs)
  have hlength := length_of_runPostfix hrun
  rw [haccounts.numbers, List.length_nil, Nat.zero_add] at hlength
  rw [Traced.operators_reduce h, Conversion.countP_operators]
  exact hlength

/-- What is left pending is what is not closed and what is not applied. -/
theorem length_pending (h : (Conversion.ofTokens tokens).outcome = .ok state) :
    state.pending.length + tokens.countP Token.isClose =
      tokens.countP Token.isOpen + (Pending.operators state.pending).length := by
  obtain ⟨hs, -, hpending⟩ := Conversion.outcome_eq_ok_iff.mp h
  have haccounts := Conversion.accounts_ofTokens (Conversion.stray_ofTokens.mp hs)
  have hparentheses := haccounts.parentheses
  rw [hpending] at hparentheses
  have hlength := Pending.length_eq state.pending
  omega

/-- Nothing is left pending exactly if every parenthesis is closed. -/
theorem length_pending_eq_zero_iff (h : (Conversion.ofTokens tokens).outcome = .ok state) :
    state.pending.length = 0 ↔ IsBalanced Token.isOpen Token.isClose tokens := by
  obtain ⟨hs, -, hpending⟩ := Conversion.outcome_eq_ok_iff.mp h
  have hwithin := Conversion.stray_ofTokens.mp hs
  rw [List.length_eq_zero_iff, ← hpending, Conversion.pending_ofTokens_eq_nil_iff hwithin]
  exact ⟨fun hall => ⟨hwithin, hall⟩, IsBalanced.closesAll⟩

end

/-- A malformed expression is one whose tokens are used up. -/
theorem exists_outcome_of_malformed {tokens : List (Token α)} {operands pending : Nat}
    (h : (reduce tokens).result = .error (.malformedExpression operands pending)) :
    ∃ state : Stacks α, (Conversion.ofTokens tokens).outcome = .ok state ∧
      state.operands.length = operands ∧ state.pending.length = pending ∧
        (operands, pending) ≠ (1, 0) := by
  rw [result_reduce] at h
  rcases bind_eq_error_iff.mp h with h | ⟨state, houtcome, h⟩
  · rcases bind_eq_error_iff.mp h with h | ⟨rest, -, h⟩
    · obtain ⟨op, available, -, -, he⟩ := error_of_runPostfix h
      cases he
    · split at h <;> cases h
  · rcases state.single_cases with ⟨value, -, hsingle⟩ | ⟨hne, hsingle⟩
    · rw [hsingle] at h
      cases h
    · rw [hsingle] at h
      cases h
      exact ⟨state, houtcome, rfl, rfl, hne⟩

/-- A reduction that has a value has applied each operator once. -/
theorem operators_perm_of_result {tokens : List (Token α)} {value : α}
    (h : (reduce tokens).result = .ok value) :
    (reduce tokens).operators.Perm (Token.operators tokens) := by
  rw [result_reduce, bind_eq_ok_iff] at h
  obtain ⟨state, houtcome, hsingle⟩ := h
  obtain rfl := Stacks.result_single_eq_ok_iff.mp hsingle
  have hperm := operators_perm houtcome
  rwa [Pending.operators, List.filterMap_nil, List.append_nil] at hperm

/-- Nothing is lost and nothing is used twice. If a token list has a value, its parentheses are
balanced, each operator token has been applied once, and there is one number more than there are
binary operators. If it is malformed, the operands that are left are the numbers that no binary
operator has consumed, and what is left pending are the parentheses that are not closed and the
operator tokens that have not been applied; that is nothing exactly if every parenthesis is closed,
and there is never just one operand left with nothing pending. -/
theorem reduce_conserves (tokens : List (Token α)) :
    (∀ value, (reduce tokens).result = .ok value →
        IsBalanced Token.isOpen Token.isClose tokens ∧
          (reduce tokens).operators.Perm (Token.operators tokens) ∧
          tokens.countP Token.isNumber =
            tokens.countP (Token.isOperator Operator.isBinary) + 1) ∧
      ∀ operands pending,
        (reduce tokens).result = .error (.malformedExpression operands pending) →
        operands + (reduce tokens).operators.countP Operator.isBinary =
            tokens.countP Token.isNumber ∧
          (∃ left, ((reduce tokens).operators ++ left).Perm (Token.operators tokens) ∧
            pending + tokens.countP Token.isClose =
              tokens.countP Token.isOpen + left.length) ∧
          (pending = 0 ↔ IsBalanced Token.isOpen Token.isClose tokens) ∧
          (operands, pending) ≠ (1, 0) := by
  constructor
  · intro value hvalue
    obtain ⟨hbalanced, hcount, -⟩ := reduce_isOk_iff.mp ⟨value, hvalue⟩
    exact ⟨hbalanced, operators_perm_of_result hvalue, hcount⟩
  · intro operands pending hmalformed
    obtain ⟨state, houtcome, rfl, rfl, hne⟩ := exists_outcome_of_malformed hmalformed
    exact ⟨length_operands houtcome,
      ⟨Pending.operators state.pending, operators_perm houtcome, length_pending houtcome⟩,
      length_pending_eq_zero_iff houtcome, hne⟩

/-- A value with a negation, and two numbers side by side behind a parenthesis that stays open and
keeps a sum waiting. -/
theorem reduce_conserves_unclosed_group :
    let tokens : List (Token Float) :=
      [.openParen, .number 2, .operator .sub, .number 3, .closeParen, .operator .mul,
        .operator .neg, .number 4]
    let unclosed : List (Token Float) :=
      [.number 1, .operator .add, .openParen, .number 2, .number 3, .operator .mul, .number 4]
    (reduce tokens).result = .ok ((2 - 3) * -4) ∧
      IsBalanced Token.isOpen Token.isClose tokens ∧
      (reduce tokens).operators.Perm [.sub, .mul, .neg] ∧
      (reduce unclosed).result = .error (.malformedExpression 3 2) ∧
      3 + (reduce unclosed).operators.countP Operator.isBinary =
        unclosed.countP Token.isNumber ∧
      (∃ left, ((reduce unclosed).operators ++ left).Perm [.add, .mul] ∧
        2 + unclosed.countP Token.isClose = unclosed.countP Token.isOpen + left.length) ∧
      ¬IsBalanced Token.isOpen Token.isClose unclosed := by
  intro tokens unclosed
  have hvalue : (reduce tokens).result = .ok ((2 - 3) * -4) := rfl
  have hmalformed : (reduce unclosed).result = .error (.malformedExpression 3 2) := rfl
  obtain ⟨hbalanced, hperm, -⟩ := (reduce_conserves tokens).1 _ hvalue
  obtain ⟨hoperands, hleft, hclosed, -⟩ := (reduce_conserves unclosed).2 3 2 hmalformed
  exact ⟨hvalue, hbalanced, hperm, hmalformed, hoperands, hleft,
    fun h => absurd (hclosed.mpr h) (by decide)⟩

end InfixArithmetic
