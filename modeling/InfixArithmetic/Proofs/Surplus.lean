/-
  Closing parentheses that close nothing.

  Where every parenthesis before it is closed, a closing parenthesis finds no open one on the
  pending stack. It then applies what waits, as the end of the tokens would
  (`Stacks.step_closeParen_stray`), and stops the reduction. So the first such parenthesis decides
  how the reduction ends, together with the tokens before it: an operator among them that lacks
  operands is reported first, and what stands behind it is never looked at
  (`reduce_of_straysAfter`). A token list without such a parenthesis is not refused for one.
-/
import InfixArithmetic.Proofs.Counting
import InfixArithmetic.Real.Literal

namespace InfixArithmetic

/-! ## The first surplus parenthesis -/

/-- Whether the first closing parenthesis of a token list that closes nothing stands right behind
`front`. -/
structure StraysAfter {α : Type} (front tokens : List (Token α)) : Prop where
  isPrefix : front ++ [Token.closeParen] <+: tokens
  closesWithin : ClosesWithin Token.isOpen Token.isClose 0 front
  surplus : (front ++ [Token.closeParen]).countP Token.isOpen <
    (front ++ [Token.closeParen]).countP Token.isClose

namespace StraysAfter

variable {α : Type} {front front' tokens : List (Token α)}

/-- Everything that is opened before is closed before. -/
theorem countP_eq (h : StraysAfter front tokens) :
    front.countP Token.isOpen = front.countP Token.isClose := by
  have hle := h.closesWithin front (List.prefix_refl front)
  have hlt := h.surplus
  simp [Token.isOpen, Token.isClose] at hlt
  omega

/-- There is only one first. -/
theorem eq (h : StraysAfter front tokens) (h' : StraysAfter front' tokens) : front = front' := by
  -- the shorter one, with its parenthesis, would be a beginning of the longer one
  have hshort : ∀ {a b : List (Token α)}, StraysAfter a tokens → StraysAfter b tokens →
      a.length ≤ b.length → a = b := by
    intro a b ha hb hle
    have hprefix : a ++ [.closeParen] <+: b ++ [.closeParen] :=
      List.prefix_of_prefix_length_le ha.isPrefix hb.isPrefix (by simpa using hle)
    rcases List.prefix_concat_iff.mp hprefix with heq | hprefix
    · exact List.append_cancel_right heq
    · have hclosed := hb.closesWithin _ hprefix
      have hsurplus := ha.surplus
      omega
  rcases Nat.le_total front.length front'.length with hle | hle
  · exact hshort h h' hle
  · exact (hshort h' h hle).symm

end StraysAfter

/-- A list that somewhere closes more than it opens has a first parenthesis that does. -/
theorem exists_straysAfter {α : Type} {tokens : List (Token α)}
    (h : ¬ClosesWithin Token.isOpen Token.isClose 0 tokens) :
    ∃ front, StraysAfter front tokens := by
  induction tokens using List.reverseRecOn with
  | nil => exact absurd (closesWithin_nil 0) h
  | append_singleton tokens token ih =>
    by_cases hwithin : ClosesWithin Token.isOpen Token.isClose 0 tokens
    · have hlast : ¬(tokens ++ [token]).countP Token.isClose ≤
          0 + (tokens ++ [token]).countP Token.isOpen := fun hle =>
        h (closesWithin_concat_iff.mpr ⟨hwithin, hle⟩)
      have htokens := hwithin tokens (List.prefix_refl tokens)
      cases token with
      | closeParen => exact ⟨tokens, List.prefix_refl _, hwithin, by omega⟩
      | _ =>
        simp [Token.isOpen, Token.isClose] at hlast
        omega
    · obtain ⟨front, hfront⟩ := ih hwithin
      exact ⟨front, hfront.isPrefix.trans (List.prefix_append tokens [token]),
        hfront.closesWithin, hfront.surplus⟩

/-! ## Runs that close what they open -/

section

variable {α : Type} [Arithmetic α] {tokens : List (Token α)}

/-- Running a program to build stacks of what it leaves fails for an operator only. -/
theorem error_of_runPostfix_bind {items : List (PostfixItem α)} {operands : List α}
    {f : List α → Stacks α} {e : EvalError}
    (h : (runPostfix items operands >>= fun rest => .ok (f rest)) = .error e) :
    ∃ op available, available < op.arity ∧ e = .stackUnderflow op op.arity available := by
  rcases bind_eq_error_iff.mp h with h | ⟨rest, -, h⟩
  · obtain ⟨op, available, -, hlt, he⟩ := error_of_runPostfix h
    exact ⟨op, available, hlt, he⟩
  · cases h

namespace Stacks

theorem result_run_empty (tokens : List (Token α)) :
    (run .empty tokens).result = (tokens.foldl Conversion.step {}).outcome :=
  (Conversion.outcome_foldl tokens {}).symm

/-- A run that closes no more than it opens fails for an operator only. -/
theorem error_of_run (h : ClosesWithin Token.isOpen Token.isClose 0 tokens) {e : EvalError}
    (he : (run .empty tokens).result = .error e) :
    ∃ op available, available < op.arity ∧ e = .stackUnderflow op op.arity available := by
  have hstray := (Conversion.accounts_foldl tokens).1.mpr h
  rw [result_run_empty, Conversion.outcome_of_not_stray hstray] at he
  exact error_of_runPostfix_bind he

/-- The open parentheses on the pending stack are those that wait to be closed. -/
theorem countP_isOpen_of_run (h : ClosesWithin Token.isOpen Token.isClose 0 tokens)
    {state : Stacks α} (hstate : (run .empty tokens).result = .ok state) :
    state.pending.countP Pending.isOpen + tokens.countP Token.isClose =
      tokens.countP Token.isOpen := by
  have hstray := (Conversion.accounts_foldl tokens).1.mpr h
  rw [result_run_empty, Conversion.outcome_of_not_stray hstray, bind_eq_ok_iff] at hstate
  obtain ⟨operands, -, heq⟩ := hstate
  cases heq
  exact ((Conversion.accounts_foldl tokens).2 hstray).parentheses

/-- Applying what waits fails for an operator only. -/
theorem error_of_resolve {leaves : Operator → Bool} {operands : List α} {pending : List Pending}
    {e : EvalError} (h : (resolve leaves operands pending).result = .error e) :
    ∃ op available, available < op.arity ∧ e = .stackUnderflow op op.arity available := by
  rw [result_resolve] at h
  exact error_of_runPostfix_bind h

/-- Without an open parenthesis everything that waits is applied. -/
theorem pending_of_resolve_all {operands : List α} {pending : List Pending}
    (h : pending.countP Pending.isOpen = 0) {state : Stacks α}
    (hstate : (resolve (fun _ => true) operands pending).result = .ok state) :
    state.pending = [] := by
  rw [pending_of_resolve hstate]
  have hcount := Pending.countP_isOpen_release (fun _ => true) pending
  rcases Pending.release_all pending with hnil | ⟨below, hbelow⟩
  · exact hnil
  · rw [hbelow, List.countP_cons_of_pos rfl] at hcount
    omega

end Stacks

end

/-! ## Stopping there -/

/-- The error at a closing parenthesis that closes nothing, if the tokens before it have the given
result: an operator that lacks operands comes first. -/
def strayError {α : Type} : Except EvalError α → EvalError
  | .error (.stackUnderflow op needed available) => .stackUnderflow op needed available
  | _ => .unbalancedParentheses

section

variable {α : Type} [Arithmetic α]

namespace Stacks

/-- A closing parenthesis that finds no open one makes the applications that the end of the tokens
would make, and fails. -/
theorem step_closeParen_stray {state : Stacks α} (h : state.pending.countP Pending.isOpen = 0) :
    state.step .closeParen = ⟨state.finish.trace, .error (strayError state.finish.result)⟩ := by
  rw [step_closeParen, finish]
  cases hresolve : (resolve (fun _ => true) state.operands state.pending).result with
  | error e =>
    obtain ⟨op, available, -, rfl⟩ := error_of_resolve hresolve
    rw [Traced.bind_of_error hresolve, Traced.bind_of_error hresolve]
    rfl
  | ok last =>
    have hpending := pending_of_resolve_all h hresolve
    have hclose : last.close = .fail .unbalancedParentheses := by
      rw [close, hpending]
    rw [Traced.bind_of_ok hresolve, Traced.bind_of_ok hresolve, hclose]
    rcases last.single_cases with ⟨value, -, hsingle⟩ | ⟨-, hsingle⟩ <;> rw [hsingle] <;> rfl

end Stacks

/-- The tokens behind the parenthesis are not looked at. -/
theorem reduce_append_closeParen {front : List (Token α)}
    (hwithin : ClosesWithin Token.isOpen Token.isClose 0 front)
    (hcount : front.countP Token.isOpen = front.countP Token.isClose) (back : List (Token α)) :
    reduce (front ++ .closeParen :: back) =
      ⟨(reduce front).trace, .error (strayError (reduce front).result)⟩ := by
  rw [reduce, reduce, Stacks.run_append]
  cases hrun : (Stacks.run .empty front).result with
  | error e =>
    obtain ⟨op, available, -, rfl⟩ := Stacks.error_of_run hwithin hrun
    simp only [Traced.bind_of_error hrun]
    rfl
  | ok state =>
    have hopen : state.pending.countP Pending.isOpen = 0 := by
      have := Stacks.countP_isOpen_of_run hwithin hrun
      omega
    have hstop : (state.run (.closeParen :: back) >>= Stacks.finish) =
        ⟨state.finish.trace, .error (strayError state.finish.result)⟩ := by
      rw [Stacks.run_cons, Stacks.step_closeParen_stray hopen]
      rfl
    rw [bind_assoc, Traced.bind_of_ok hrun, Traced.bind_of_ok hrun, hstop]

end

/-! ## The law of surplus parentheses -/

theorem result_reduce_ne_unbalancedParentheses {α : Type} [Arithmetic α] {tokens : List (Token α)}
    (h : ClosesWithin Token.isOpen Token.isClose 0 tokens) :
    (reduce tokens).result ≠ .error .unbalancedParentheses := by
  intro herror
  rw [result_reduce, Conversion.outcome_of_not_stray (Conversion.stray_ofTokens.mpr h),
    bind_assoc] at herror
  rcases bind_eq_error_iff.mp herror with herror | ⟨operands, -, herror⟩
  · obtain ⟨op, available, -, -, he⟩ := error_of_runPostfix herror
    cases he
  · have hsingle : (Stacks.single ⟨operands, (Conversion.ofTokens tokens).pending⟩).result =
        .error .unbalancedParentheses := herror
    rcases Stacks.single_cases (⟨operands, (Conversion.ofTokens tokens).pending⟩ : Stacks α)
      with ⟨value, -, heq⟩ | ⟨-, heq⟩ <;> rw [heq] at hsingle <;> cases hsingle

/-- A token list that nowhere closes more than it opens is not refused for its parentheses. In any
other one there is one first parenthesis that closes nothing, and the tokens before it decide: the
applications are theirs, and the error is the one of their operator that lacks operands, if there is
one, or else that of the parenthesis. -/
theorem reduce_of_straysAfter {α : Type} [Arithmetic α] (tokens : List (Token α)) :
    (ClosesWithin Token.isOpen Token.isClose 0 tokens →
        (reduce tokens).result ≠ .error .unbalancedParentheses) ∧
      (¬ClosesWithin Token.isOpen Token.isClose 0 tokens → ∃! front, StraysAfter front tokens) ∧
      ∀ front, StraysAfter front tokens →
        (reduce tokens).trace = (reduce front).trace ∧
          (reduce tokens).result = .error (strayError (reduce front).result) := by
  refine ⟨result_reduce_ne_unbalancedParentheses, fun hnot => ?_, fun front hfront => ?_⟩
  · obtain ⟨front, hfront⟩ := exists_straysAfter hnot
    exact ⟨front, hfront, fun front' hfront' => hfront'.eq hfront⟩
  · obtain ⟨back, rfl⟩ := hfront.isPrefix
    rw [List.append_assoc, List.singleton_append,
      reduce_append_closeParen hfront.closesWithin hfront.countP_eq back]
    exact ⟨rfl, rfl⟩

/-- An operator that lacks an operand, a parenthesis that closes nothing, and one that is left open
behind it; and one that is left open alone. -/
theorem reduce_of_straysAfter_missing_operand :
    let front : List (Token Float) := [.number 2, .operator .mul, .number 3, .operator .add]
    let tokens := front ++ [.closeParen, .openParen, .number 4]
    let unclosed : List (Token Float) := [.openParen, .number 5]
    ¬ClosesWithin Token.isOpen Token.isClose 0 tokens ∧ (∃! front, StraysAfter front tokens) ∧
      StraysAfter front tokens ∧ (reduce tokens).trace = [⟨.mul, 1⟩] ∧
      (reduce tokens).result = .error (.stackUnderflow .add 2 1) ∧
      ClosesWithin Token.isOpen Token.isClose 0 unclosed ∧
      (reduce unclosed).result ≠ .error .unbalancedParentheses := by
  intro front tokens unclosed
  have hwithin : ClosesWithin Token.isOpen Token.isClose 0 front := by
    repeat refine Iff.mpr (closesWithin_cons_of_neither rfl rfl) ?_
    exact closesWithin_nil 0
  have hfront : StraysAfter front tokens := ⟨⟨_, rfl⟩, hwithin, by decide⟩
  have hnot : ¬ClosesWithin Token.isOpen Token.isClose 0 tokens := by
    intro hwithin
    have hle := hwithin _ hfront.isPrefix
    have hlt := hfront.surplus
    omega
  have hunclosed : ClosesWithin Token.isOpen Token.isClose 0 unclosed := by
    refine Iff.mpr (closesWithin_cons_of_open rfl rfl) ?_
    refine Iff.mpr (closesWithin_cons_of_neither rfl rfl) ?_
    exact closesWithin_nil 1
  obtain ⟨-, hunique, hlaw⟩ := reduce_of_straysAfter tokens
  obtain ⟨htrace, hresult⟩ := hlaw front hfront
  exact ⟨hnot, hunique hnot, hfront, htrace, hresult, hunclosed,
    (reduce_of_straysAfter unclosed).1 hunclosed⟩

end InfixArithmetic
