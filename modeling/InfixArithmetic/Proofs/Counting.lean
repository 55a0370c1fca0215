/-
  Whether a reduction finds a value is a matter of counting.

  A postfix program that runs to its end leaves one operand for each number that is not consumed by
  a binary operator (`length_of_runPostfix`), and at least one if it is not empty
  (`ne_nil_of_runPostfix`); it runs to its end exactly if enough numbers stand before each operator
  (`runPostfix_isOk_iff`). With what a conversion queues this gives the counts of tokens that a value
  needs (`reduce_isOk_iff`), and the error that balanced tokens with too few numbers have.
-/
import InfixArithmetic.Proofs.Conservation
import InfixArithmetic.Proofs.Postfix

namespace InfixArithmetic

/-! ## Running a program -/

section

variable {α : Type} [Arithmetic α]

/-- One item finds too few operands, or leaves an operand on top of what it does not consume. -/
theorem runPostfix_singleton (item : PostfixItem α) (operands : List α) :
    (∃ op, item = .operator op ∧ operands.length < op.arity ∧
      runPostfix [item] operands = .error (.stackUnderflow op op.arity operands.length)) ∨
    ∃ value below, runPostfix [item] operands = .ok (value :: below) ∧
      below.length + 1 + (item.isOperator Operator.isBinary).toNat =
        operands.length + item.isNumber.toNat := by
  cases item with
  | number value => exact Or.inr ⟨value, operands, rfl, rfl⟩
  | operator op =>
    rcases op.arity_cases operands with hlt | ⟨rfl, x, below, rfl⟩ | ⟨hop, y, x, below, rfl⟩
    · exact Or.inl ⟨op, rfl, hlt, runPostfix_of_lt hlt⟩
    · exact Or.inr ⟨-x, below, rfl, rfl⟩
    · refine Or.inr ⟨op.applyBinary x y, below, runPostfix_binary hop x y below, ?_⟩
      show below.length + 1 + (!op.isUnary).toNat = below.length + 1 + 1 + 0
      rw [hop]
      rfl

/-- Numbers add an operand, binary operators take one away. -/
theorem length_of_runPostfix {items : List (PostfixItem α)} {operands rest : List α}
    (h : runPostfix items operands = .ok rest) :
    rest.length + items.countP (PostfixItem.isOperator Operator.isBinary) =
      operands.length + items.countP PostfixItem.isNumber := by
  induction items generalizing operands with
  | nil =>
    cases h
    rfl
  | cons item items ih =>
    rw [runPostfix_cons] at h
    rw [countP_cons_eq, countP_cons_eq]
    rcases runPostfix_singleton item operands with
      ⟨op, -, -, hitem⟩ | ⟨value, below, hitem, hlength⟩
    · rw [hitem] at h
      cases h
    · rw [hitem] at h
      have hrest := ih h
      rw [List.length_cons] at hrest
      omega

/-- A program that does something leaves something. -/
theorem ne_nil_of_runPostfix {items : List (PostfixItem α)} {operands rest : List α}
    (h : runPostfix items operands = .ok rest) (hne : items ≠ [] ∨ operands ≠ []) :
    rest ≠ [] := by
  induction items generalizing operands with
  | nil =>
    cases h
    exact hne.resolve_left fun hnil => hnil rfl
  | cons item items ih =>
    rw [runPostfix_cons] at h
    rcases runPostfix_singleton item operands with ⟨op, -, -, hitem⟩ | ⟨value, below, hitem, -⟩
    · rw [hitem] at h
      cases h
    · rw [hitem] at h
      exact ih h (Or.inr (List.cons_ne_nil value below))

/-- The only failure is an operator of the program that finds fewer operands than it takes. -/
theorem error_of_runPostfix {items : List (PostfixItem α)} {operands : List α} {e : EvalError}
    (h : runPostfix items operands = .error e) :
    ∃ op available, .operator op ∈ items ∧ available < op.arity ∧
      e = .stackUnderflow op op.arity available := by
  induction items generalizing operands with
  | nil => cases h
  | cons item items ih =>
    rw [runPostfix_cons] at h
    rcases runPostfix_singleton item operands with
      ⟨op, rfl, hlt, hitem⟩ | ⟨value, below, hitem, -⟩
    · rw [hitem] at h
      cases h
      exact ⟨op, operands.length, List.mem_cons_self, hlt, rfl⟩
    · rw [hitem] at h
      obtain ⟨op, available, hmem, hlt, he⟩ := ih h
      exact ⟨op, available, List.mem_cons_of_mem item hmem, hlt, he⟩

/-- Whether each operator of a program comes after the operands it takes, `available` of them being
there from the beginning. -/
def FindsOperands (available : Nat) (items : List (PostfixItem α)) : Prop :=
  ∀ front op, front ++ [.operator op] <+: items →
    op.arity + front.countP (PostfixItem.isOperator Operator.isBinary) ≤
      available + front.countP PostfixItem.isNumber

theorem runPostfix_operator_isOk_iff {op : Operator} {operands : List α} :
    (∃ rest, runPostfix [.operator op] operands = .ok rest) ↔ op.arity ≤ operands.length := by
  constructor
  · intro ⟨rest, hrest⟩
    by_contra hle
    rw [runPostfix_of_lt (Nat.lt_of_not_le hle)] at hrest
    cases hrest
  · intro hle
    rcases runPostfix_singleton (.operator op) operands with
      ⟨op', heq, hlt, -⟩ | ⟨value, below, hitem, -⟩
    · cases heq
      omega
    · exact ⟨value :: below, hitem⟩

/-- A program runs to its end exactly if counting finds the operands of each operator. -/
theorem runPostfix_isOk_iff {items : List (PostfixItem α)} {operands : List α} :
    (∃ rest, runPostfix items operands = .ok rest) ↔ FindsOperands operands.length items := by
  induction items using List.reverseRecOn with
  | nil =>
    refine ⟨fun _ front op hfront => ?_, fun _ => ⟨operands, rfl⟩⟩
    exact absurd (List.prefix_nil.mp hfront) (by simp)
  | append_singleton items item ih =>
    constructor
    · intro ⟨rest, hrest⟩
      rw [runPostfix_append, bind_eq_ok_iff] at hrest
      obtain ⟨middle, hitems, hitem⟩ := hrest
      intro front op hfront
      rcases List.prefix_concat_iff.mp hfront with heq | hfront
      · obtain ⟨rfl, hlast⟩ := List.append_inj' heq rfl
        cases hlast
        have hlength := length_of_runPostfix hitems
        have harity := runPostfix_operator_isOk_iff.mp ⟨rest, hitem⟩
        omega
      · exact ih.mp ⟨middle, hitems⟩ front op hfront
    · intro h
      obtain ⟨middle, hitems⟩ := ih.mpr fun front op hfront =>
        h front op (hfront.trans (List.prefix_append items [item]))
      rw [runPostfix_append, hitems]
      cases item with
      | number value => exact ⟨value :: middle, rfl⟩
      | operator op =>
        refine runPostfix_operator_isOk_iff.mpr ?_
        have hlength := length_of_runPostfix hitems
        have hfinds := h items op (List.prefix_refl _)
        omega

/-! ## Reduction by counting -/

variable {tokens : List (Token α)}

/-- If the parentheses are balanced, only the operands that are left decide. -/
theorem result_reduce_of_isBalanced (h : IsBalanced Token.isOpen Token.isClose tokens) :
    (reduce tokens).result = runPostfix (Conversion.ofTokens tokens).queue [] >>= fun operands =>
      (Stacks.single ⟨operands, []⟩).result := by
  rw [result_reduce, Conversion.outcome_of_not_stray (Conversion.stray_ofTokens.mpr h.closesWithin),
    Conversion.pending_ofTokens_of_isBalanced h, bind_assoc]
  rfl

/-- How many operands are left is a count of the tokens. -/
theorem length_of_runPostfix_ofTokens (h : IsBalanced Token.isOpen Token.isClose tokens)
    {operands : List α} (hrun : runPostfix (Conversion.ofTokens tokens).queue [] = .ok operands) :
    operands.length + tokens.countP (Token.isOperator Operator.isBinary) =
      tokens.countP Token.isNumber := by
  have hlength := length_of_runPostfix hrun
  rw [Conversion.countP_isOperator_ofTokens h, (Conversion.accounts_ofTokens h.closesWithin).numbers,
    List.length_nil, Nat.zero_add] at hlength
  exact hlength

theorem isBalanced_of_result_reduce {value : α} (h : (reduce tokens).result = .ok value) :
    IsBalanced Token.isOpen Token.isClose tokens := by
  rw [result_reduce, bind_eq_ok_iff] at h
  obtain ⟨state, houtcome, hvalue⟩ := h
  have hs : (Conversion.ofTokens tokens).stray = false := by
    cases hs : (Conversion.ofTokens tokens).stray with
    | false => rfl
    | true =>
      rw [Conversion.outcome_of_stray hs, bind_eq_ok_iff] at houtcome
      obtain ⟨operands, -, herror⟩ := houtcome
      cases herror
  have hwithin := Conversion.stray_ofTokens.mp hs
  rw [Conversion.outcome_of_not_stray hs, bind_eq_ok_iff] at houtcome
  obtain ⟨operands, -, hstate⟩ := houtcome
  cases hstate
  have hsingle := Stacks.result_single_eq_ok_iff.mp hvalue
  exact ⟨hwithin, (Conversion.pending_ofTokens_eq_nil_iff hwithin).mp
    (congrArg Stacks.pending hsingle)⟩

/-- There is a value exactly if parentheses are balanced, there is one number more than there are
binary operators, and every operator of the postfix program finds its operands. -/
theorem reduce_isOk_iff :
    (∃ value, (reduce tokens).result = .ok value) ↔
      IsBalanced Token.isOpen Token.isClose tokens ∧
        tokens.countP Token.isNumber =
          tokens.countP (Token.isOperator Operator.isBinary) + 1 ∧
        FindsOperands 0 (Conversion.ofTokens tokens).queue := by
  constructor
  · intro ⟨value, hvalue⟩
    have hbalanced := isBalanced_of_result_reduce hvalue
    rw [result_reduce_of_isBalanced hbalanced, bind_eq_ok_iff] at hvalue
    obtain ⟨operands, hrun, hvalue⟩ := hvalue
    have hlength := length_of_runPostfix_ofTokens hbalanced hrun
    refine ⟨hbalanced, ?_, runPostfix_isOk_iff.mp ⟨operands, hrun⟩⟩
    have hsingle := Stacks.result_single_eq_ok_iff.mp hvalue
    have hone : operands = [value] := congrArg Stacks.operands hsingle
    rw [hone, List.length_singleton] at hlength
    omega
  · intro ⟨hbalanced, hcount, hfinds⟩
    have hruns : ∃ operands : List α,
        runPostfix (Conversion.ofTokens tokens).queue [] = .ok operands :=
      runPostfix_isOk_iff.mpr hfinds
    obtain ⟨operands, hrun⟩ := hruns
    have hlength := length_of_runPostfix_ofTokens hbalanced hrun
    obtain ⟨value, rfl⟩ := List.length_eq_one_iff.mp (by omega : operands.length = 1)
    rw [result_reduce_of_isBalanced hbalanced, hrun]
    exact ⟨value, rfl⟩

/-- Nothing but parentheses leaves nothing. -/
theorem result_reduce_of_forall_paren (h : IsBalanced Token.isOpen Token.isClose tokens)
    (hall : ∀ token ∈ tokens, token.isOpen = true ∨ token.isClose = true) :
    (reduce tokens).result = .error (.malformedExpression 0 0) := by
  rw [result_reduce_of_isBalanced h, (Conversion.queue_ofTokens_eq_nil_iff h).mpr hall]
  rfl

/-- With too few numbers, some operator does not find its operands. -/
theorem result_reduce_of_countP_le (h : IsBalanced Token.isOpen Token.isClose tokens)
    (hcount : tokens.countP Token.isNumber ≤ tokens.countP (Token.isOperator Operator.isBinary))
    (hsome : ¬∀ token ∈ tokens, token.isOpen = true ∨ token.isClose = true) :
    ∃ op available, available < op.arity ∧
      (reduce tokens).result = .error (.stackUnderflow op op.arity available) := by
  have hne : (Conversion.ofTokens tokens).queue ≠ [] := fun hnil =>
    hsome ((Conversion.queue_ofTokens_eq_nil_iff h).mp hnil)
  rw [result_reduce_of_isBalanced h]
  cases hrun : runPostfix (Conversion.ofTokens tokens).queue ([] : List α) with
  | ok operands =>
    have hlength := length_of_runPostfix_ofTokens h hrun
    have hzero : operands = [] := List.length_eq_zero_iff.mp (by omega)
    exact absurd hzero (ne_nil_of_runPostfix hrun (Or.inl hne))
  | error e =>
    obtain ⟨op, available, -, hlt, rfl⟩ := error_of_runPostfix hrun
    exact ⟨op, available, hlt, rfl⟩

end

end InfixArithmetic
