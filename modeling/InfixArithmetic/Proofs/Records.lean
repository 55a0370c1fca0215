/-
  What the log of an evaluation says.

  A text that has no tokens leaves one entry, its error. Any other one leaves the number of its
  tokens and bytes, one entry for each application, and its error if it has one
  (`evaluation_log_exact`).

  For a text with a value the entries can be told from its characters. Its operator tokens are its
  operator symbols in order (`symbols_tokenize`), and each of them is applied once, whatever the
  order. The last application leaves one operand: the record follows the height of the operand
  stack (`Traced.recordedHeight`), which only numbers raise between two applications, and an
  application leaves at least its own result.
-/
import InfixArithmetic.Proofs.Applications
import InfixArithmetic.Proofs.Attempts
import InfixArithmetic.Proofs.Reading

namespace InfixArithmetic

variable {α : Type}

/-! ## Operators and their symbols -/

theorem isBlank_eq_false_of_isOperatorSymbol {c : Char} (h : Lexeme.isOperatorSymbol c = true) :
    Text.isBlank c = false := by
  rcases Lexeme.isOperatorSymbol_iff.mp h with rfl | rfl | rfl | rfl <;> rfl

/-- No operator symbol is lost with the blanks. -/
theorem filter_isOperatorSymbol_nonBlanks (text : String) :
    (nonBlanks text).filter Lexeme.isOperatorSymbol =
      text.toList.filter Lexeme.isOperatorSymbol := by
  rw [nonBlanks, List.filter_filter]
  refine List.filter_congr fun c _ => ?_
  cases hc : Lexeme.isOperatorSymbol c with
  | false => rw [Bool.false_and]
  | true => rw [isBlank_eq_false_of_isOperatorSymbol hc]; rfl

theorem Lexeme.filter_isOperatorSymbol_literal {literal : List Char} (h : IsLiteral literal) :
    literal.filter isOperatorSymbol = [] := by
  refine List.filter_eq_nil_iff.mpr fun c hc hsymbol => ?_
  have hnumber := isNumberChar_of_mem_literal h c hc
  rw [isNumberChar_eq_false_of_isOperatorSymbol hsymbol] at hnumber
  cases hnumber

theorem Token.operators_cons (token : Token α) (tokens : List (Token α)) :
    operators (token :: tokens) = token.operator?.toList ++ operators tokens := by
  cases token <;> rfl

section

variable [Arithmetic α]

namespace Token

/-- A token is an operator if its lexeme has an operator symbol, the same. -/
theorem symbols_ofLexeme {atOperand : Bool} {l : Lexeme} {token : Token α} (hl : l.IsValid)
    (h : ofLexeme atOperand l = .ok token) :
    token.operator?.toList.map Operator.symbol = l.text.filter Lexeme.isOperatorSymbol := by
  cases l with
  | openParen =>
    cases h
    rfl
  | closeParen =>
    cases h
    rfl
  | number literal =>
    obtain ⟨value, rfl⟩ := exists_of_ofLexeme_number h
    exact (Lexeme.filter_isOperatorSymbol_literal hl).symm
  | operator symbol =>
    obtain ⟨op, rfl, rfl, -⟩ := exists_of_ofLexeme_operator h
    exact (List.filter_eq_self.mpr (List.forall_mem_singleton.mpr hl)).symm

/-- The operators of a row are its operator symbols, in order. -/
theorem symbols_ofLexemes {unaryMinus operandDue : Bool} {ls : List Lexeme}
    {tokens : List (Token α)} (hvalid : ∀ l ∈ ls, l.IsValid)
    (h : ofLexemes unaryMinus operandDue ls = .ok tokens) :
    (operators tokens).map Operator.symbol =
      (Lexeme.textOf ls).filter Lexeme.isOperatorSymbol := by
  induction ls generalizing operandDue tokens with
  | nil =>
    cases h
    rfl
  | cons l ls ih =>
    obtain ⟨hl, hls⟩ := List.forall_mem_cons.mp hvalid
    obtain ⟨token, rest, htoken, hrest, rfl⟩ := ofLexemes_cons_eq_ok_iff.mp h
    rw [operators_cons, List.map_append, symbols_ofLexeme hl htoken, ih hls hrest,
      Lexeme.textOf_cons, List.filter_append]

end Token

/-- The operators of a text are its operator symbols, in order. -/
theorem symbols_tokenize {config : Config} {text : String} {tokens : List (Token α)}
    (h : tokenize config text = .ok tokens) :
    (Token.operators tokens).map Operator.symbol =
      text.toList.filter Lexeme.isOperatorSymbol := by
  obtain ⟨-, -, ls, hrow, -, htext, htokens⟩ := tokenize_eq_ok_iff.mp h
  rw [Token.symbols_ofLexemes hrow.isValid htokens, htext, filter_isOperatorSymbol_nonBlanks]

end

/-! ## The height that the record tells -/

namespace Traced

variable {β γ : Type}

/-- The number of operands that the last application has left, or the number before if nothing has
been applied. -/
def recordedHeight (before : Nat) (x : Traced β) : Nat :=
  (x.trace.getLast?.map Applied.operands).getD before

theorem recordedHeight_of_nil {x : Traced β} (h : x.trace = []) (before : Nat) :
    x.recordedHeight before = before := by
  rw [recordedHeight, h]
  rfl

theorem recordedHeight_of_getLast? {x : Traced β} {applied : Applied}
    (h : x.trace.getLast? = some applied) (before : Nat) :
    x.recordedHeight before = applied.operands := by
  rw [recordedHeight, h]
  rfl

theorem recordedHeight_mono (x : Traced β) {before before' : Nat} (h : before ≤ before') :
    x.recordedHeight before ≤ x.recordedHeight before' := by
  unfold recordedHeight
  cases x.trace.getLast? with
  | none => exact h
  | some applied => exact Nat.le_refl _

theorem recordedHeight_bind {x : Traced β} {b : β} (h : x.result = .ok b) (f : β → Traced γ)
    (before : Nat) :
    (x >>= f).recordedHeight before = (f b).recordedHeight (x.recordedHeight before) := by
  unfold recordedHeight
  rw [bind_of_ok h]
  dsimp only
  rw [List.getLast?_append]
  cases (f b).trace.getLast? with
  | none => rfl
  | some applied => rfl

end Traced

variable [Arithmetic α]

open Traced

/-- An application records what it leaves. -/
theorem Operator.recordedHeight_applyTop {op : Operator} {operands rest : List α}
    (h : (op.applyTop operands).result = .ok rest) (before : Nat) :
    (op.applyTop operands).recordedHeight before = rest.length := by
  rcases op.applyTop_cases operands with ⟨-, heq⟩ | ⟨value, below, heq⟩
  · rw [heq] at h
    cases h
  · rw [heq] at h ⊢
    cases h
    rfl

theorem Operator.operands_pos_of_mem_applyTop {op : Operator} {operands : List α}
    {applied : Applied} (h : applied ∈ (op.applyTop operands).trace) : 1 ≤ applied.operands := by
  rcases op.applyTop_cases operands with ⟨-, heq⟩ | ⟨value, below, heq⟩
  · rw [heq] at h
    cases h
  · rw [heq] at h
    rw [List.mem_singleton.mp h]
    exact Nat.succ_pos _

namespace Stacks

/-- Nothing but an application moves the operands in a release. -/
theorem recordedHeight_resolve {leaves : Operator → Bool} {operands : List α}
    {pending : List Pending} {state : Stacks α}
    (h : (resolve leaves operands pending).result = .ok state) :
    (resolve leaves operands pending).recordedHeight operands.length = state.operands.length := by
  induction pending generalizing operands with
  | nil =>
    cases h
    rfl
  | cons entry pending ih =>
    cases entry with
    | openParen =>
      cases h
      rfl
    | operator op =>
      cases hleaves : leaves op with
      | false =>
        rw [resolve_of_stays leaves hleaves] at h ⊢
        cases h
        rfl
      | true =>
        rw [resolve_of_leaves leaves hleaves] at h ⊢
        rw [result_bind_eq_ok_iff] at h
        obtain ⟨rest, happly, hrest⟩ := h
        rw [recordedHeight_bind happly, Operator.recordedHeight_applyTop happly, ih hrest]

/-- Behind its last application a token leaves the operands alone or puts a number on them. -/
theorem recordedHeight_step {state state' : Stacks α} {token : Token α}
    (h : (state.step token).result = .ok state') :
    (state.step token).recordedHeight state.operands.length ≤ state'.operands.length := by
  cases token with
  | number value =>
    cases h
    exact Nat.le_succ _
  | openParen =>
    cases h
    exact Nat.le_refl _
  | operator incoming =>
    rw [step_operator] at h ⊢
    rw [result_bind_eq_ok_iff] at h
    obtain ⟨middle, hresolve, hpush⟩ := h
    cases hpush
    refine Nat.le_of_eq ?_
    rw [recordedHeight_bind hresolve, recordedHeight_resolve hresolve]
    rfl
  | closeParen =>
    rw [step_closeParen] at h ⊢
    rw [result_bind_eq_ok_iff] at h
    obtain ⟨middle, hresolve, hclose⟩ := h
    obtain ⟨entry, -, hoperands⟩ := result_close_eq_ok_iff.mp hclose
    refine Nat.le_of_eq ?_
    rw [recordedHeight_bind hresolve, recordedHeight_resolve hresolve,
      recordedHeight_of_nil middle.trace_close, hoperands]

/-- Behind the last application of a run there are only numbers. -/
theorem recordedHeight_run {state state' : Stacks α} {tokens : List (Token α)}
    (h : (state.run tokens).result = .ok state') :
    (state.run tokens).recordedHeight state.operands.length ≤ state'.operands.length := by
  induction tokens generalizing state with
  | nil =>
    cases h
    exact Nat.le_refl _
  | cons token tokens ih =>
    rw [run_cons] at h ⊢
    rw [result_bind_eq_ok_iff] at h
    obtain ⟨middle, hstep, hrest⟩ := h
    -- the numbers of the first token are not on record, so the rest starts above its record
    rw [recordedHeight_bind hstep]
    exact Nat.le_trans (recordedHeight_mono _ (recordedHeight_step hstep)) (ih hrest)

end Stacks

/-- A reduction that has a value has at most that value on record. -/
theorem recordedHeight_reduce {tokens : List (Token α)} {value : α}
    (h : (reduce tokens).result = .ok value) : (reduce tokens).recordedHeight 0 ≤ 1 := by
  rw [reduce] at h ⊢
  rw [result_bind_eq_ok_iff] at h
  obtain ⟨last, hrun, hfinish⟩ := h
  rw [Stacks.finish, result_bind_eq_ok_iff] at hfinish
  obtain ⟨state, hresolve, hsingle⟩ := hfinish
  obtain rfl := Stacks.result_single_eq_ok_iff.mp hsingle
  have hbelow : (Stacks.run .empty tokens).recordedHeight 0 ≤ last.operands.length :=
    Stacks.recordedHeight_run hrun
  have hsingleton := Stacks.recordedHeight_resolve hresolve
  rw [recordedHeight_bind hrun, Stacks.finish, recordedHeight_bind hresolve,
    recordedHeight_of_nil (Stacks.trace_single _)]
  exact Nat.le_trans (recordedHeight_mono _ hbelow) (Nat.le_of_eq hsingleton)

/-- The last application of a reduction that has a value leaves one operand. -/
theorem operands_of_getLast?_trace {tokens : List (Token α)} {value : α} {applied : Applied}
    (h : (reduce tokens).result = .ok value)
    (hlast : (reduce tokens).trace.getLast? = some applied) : applied.operands = 1 := by
  have hle := recordedHeight_reduce h
  rw [recordedHeight_of_getLast? hlast] at hle
  have hmem := List.mem_of_getLast? hlast
  rw [(makes_reduce tokens).trace, List.mem_flatMap] at hmem
  obtain ⟨attempt, -, hrecord⟩ := hmem
  have hpos := Operator.operands_pos_of_mem_applyTop hrecord
  omega

/-! ## The log -/

theorem log_of_tokenize_error {config : Config} {text : String} {e : EvalError}
    (h : tokenize (α := α) config text = .error e) :
    (evaluation (α := α) config text).log = [.failed e] := by
  rw [evaluation, h]
  rfl

theorem log_of_tokenize {config : Config} {text : String} {tokens : List (Token α)}
    (h : tokenize config text = .ok tokens) :
    (evaluation (α := α) config text).log =
      .reducing tokens.length text.utf8ByteSize ::
        ((reduce tokens).trace.map Event.applied ++ closing (evaluate (α := α) config text)) := by
  rw [evaluate_of_tokenize h, evaluation, h]

/-- What the log says is so. A text without tokens leaves its error. Any other one leaves the number
of its tokens and of its bytes, then each application with its symbol and the number of operands
behind it, then its error, if it has one. If it has a value, there are as many applications as it
has operator symbols, with these symbols in some order, and the last one leaves one operand. -/
theorem evaluation_log_exact (config : Config) (text : String) :
    (∀ e, tokenize (α := α) config text = .error e →
        evaluate (α := α) config text = .error e ∧
          (evaluation (α := α) config text).log.map Event.line =
            ["DEBUG Evaluation failed: " ++ e.message]) ∧
      ∀ tokens : List (Token α), tokenize config text = .ok tokens →
        ∃ last : List String,
          (evaluation (α := α) config text).log.map Event.line =
            ("DEBUG Reducing " ++ toString tokens.length ++ " token(s) from " ++
                toString text.utf8ByteSize ++ " byte expression") ::
              ((reduce tokens).trace.map (fun applied =>
                "TRACE Applied `" ++ toString applied.operator.symbol ++ "`, " ++
                  toString applied.operands ++ " operand(s) on stack") ++ last) ∧
          (∀ e, evaluate (α := α) config text = .error e →
            last = ["DEBUG Evaluation failed: " ++ e.message]) ∧
          ∀ value : α, evaluate config text = .ok value →
            last = [] ∧
              (reduce tokens).trace.length = text.toList.countP Lexeme.isOperatorSymbol ∧
              ((reduce tokens).trace.map (·.operator.symbol)).Perm
                (text.toList.filter Lexeme.isOperatorSymbol) ∧
              ∀ applied, (reduce tokens).trace.getLast? = some applied →
                applied.operands = 1 := by
  constructor
  · intro e he
    refine ⟨evaluate_of_tokenize_error he, ?_⟩
    rw [log_of_tokenize_error he, List.map_singleton, Event.line_failed]
  · intro tokens htokens
    refine ⟨(closing (evaluate (α := α) config text)).map Event.line, ?_, ?_, ?_⟩
    · have hlines : (reduce tokens).trace.map (Event.line ∘ Event.applied) =
          (reduce tokens).trace.map fun applied =>
            "TRACE Applied `" ++ toString applied.operator.symbol ++ "`, " ++
              toString applied.operands ++ " operand(s) on stack" :=
        List.map_congr_left fun _ _ => Event.line_applied _ _
      rw [log_of_tokenize htokens, List.map_cons, List.map_append, List.map_map, hlines,
        Event.line_reducing]
    · intro e he
      rw [he, closing, List.map_singleton, Event.line_failed]
    · intro value hvalue
      have hresult : (reduce tokens).result = .ok value := by
        rw [← evaluate_of_tokenize htokens, hvalue]
      have hperm : ((reduce tokens).trace.map (·.operator.symbol)).Perm
          (text.toList.filter Lexeme.isOperatorSymbol) := by
        rw [← symbols_tokenize htokens]
        have hsymbols := (operators_perm_of_result hresult).map Operator.symbol
        rwa [Traced.operators, List.map_map] at hsymbols
      refine ⟨?_, ?_, hperm, fun applied => operands_of_getLast?_trace hresult⟩
      · rw [hvalue]
        rfl
      · rw [List.countP_eq_length_filter, ← hperm.length_eq, List.length_map]

/-- A character that is refused; a negation that is applied before a product lacks an operand; and
a product of a negation and a group. -/
theorem evaluation_log_exact_three_texts :
    tokenize (α := Float) {} "2 $ 3" = .error (.invalidCharacter '$' 2) ∧
      (evaluation (α := Float) {} "2 $ 3").log.map Event.line =
        ["DEBUG Evaluation failed: invalid character '$' at position 2"] ∧
      (∃ tokens : List (Token Float), tokenize {} "-2 *" = .ok tokens) ∧
      (evaluation (α := Float) {} "-2 *").log.map Event.line =
        ["DEBUG Reducing 3 token(s) from 4 byte expression",
          "TRACE Applied `-`, 1 operand(s) on stack",
          "DEBUG Evaluation failed: operator `*` needs 2 operand(s) but only 1 available"] ∧
      (∃ value : Float, evaluate {} "-2 * (3 - 4)" = .ok value) ∧
      (evaluation (α := Float) {} "-2 * (3 - 4)").log.map Event.line =
        ["DEBUG Reducing 8 token(s) from 12 byte expression",
          "TRACE Applied `-`, 1 operand(s) on stack",
          "TRACE Applied `-`, 2 operand(s) on stack",
          "TRACE Applied `*`, 1 operand(s) on stack"] := by
  have hdigit : ∀ c : Char, c.isDigit = true → IsLiteral [c] := fun c hc =>
    Lexeme.isLiteral_of_all_isDigit (by simpa using hc) (List.cons_ne_nil _ _)
  have hread : ∀ c : Char, c.isDigit = true →
      ∃ x : Float, Arithmetic.readLiteral? [c] = some x := fun c hc =>
    Option.isSome_iff_exists.mp (ReadsLiterals.isSome_readLiteral? (hdigit c hc))
  obtain ⟨two, htwo⟩ := hread '2' rfl
  obtain ⟨three, hthree⟩ := hread '3' rfl
  obtain ⟨four, hfour⟩ := hread '4' rfl
  have hrefused : tokenize (α := Float) {} "2 $ 3" = .error (.invalidCharacter '$' 2) := rfl
  let front : List Lexeme := [.operator '-', .number ['2'], .operator '*']
  let row : List Lexeme := front ++
    [.openParen, .number ['3'], .operator '-', .number ['4'], .closeParen]
  have hfrontRow : Lexeme.IsRow front := by
    constructor
    · simp [front, Lexeme.IsValid, Lexeme.isOperatorSymbol, hdigit]
    · simp [front, Lexeme.Separated, Lexeme.isNumber]
  have hrow : Lexeme.IsRow row := by
    constructor
    · simp [row, front, Lexeme.IsValid, Lexeme.isOperatorSymbol, hdigit]
    · simp [row, front, Lexeme.Separated, Lexeme.isNumber]
  have hopen : tokenize (α := Float) {} "-2 *" =
      .ok [.operator .neg, .number two, .operator .mul] := by
    refine tokenize_eq_ok_iff.mpr ⟨by decide, List.all_eq_true.mp (by decide), front, hfrontRow,
      List.cons_ne_nil _ _, by decide, ?_⟩
    simp only [front, Token.ofLexemes, Token.ofLexeme, htwo]
    rfl
  have hclosed : tokenize (α := Float) {} "-2 * (3 - 4)" =
      .ok [.operator .neg, .number two, .operator .mul, .openParen, .number three,
        .operator .sub, .number four, .closeParen] := by
    refine tokenize_eq_ok_iff.mpr ⟨by decide, List.all_eq_true.mp (by decide), row, hrow,
      List.cons_ne_nil _ _, by decide, ?_⟩
    simp only [row, front, List.cons_append, List.nil_append, Token.ofLexemes, Token.ofLexeme,
      htwo, hthree, hfour]
    rfl
  obtain ⟨-, hlog⟩ := (evaluation_log_exact {} "2 $ 3").1 _ hrefused
  obtain ⟨last, hlog', hlast, -⟩ := (evaluation_log_exact {} "-2 *").2 _ hopen
  obtain ⟨last', hlog'', -, hvalue⟩ := (evaluation_log_exact {} "-2 * (3 - 4)").2 _ hclosed
  have herror : evaluate (α := Float) {} "-2 *" = .error (.stackUnderflow .mul 2 1) :=
    (evaluate_of_tokenize hopen).trans rfl
  have hok : evaluate {} "-2 * (3 - 4)" = .ok (-two * (three - four)) :=
    (evaluate_of_tokenize hclosed).trans rfl
  have htrace' : (reduce [.operator .neg, .number two, .operator .mul]).trace = [⟨.neg, 1⟩] := rfl
  have htrace'' : (reduce [.operator .neg, .number two, .operator .mul, .openParen, .number three,
      .operator .sub, .number four, .closeParen]).trace = [⟨.neg, 1⟩, ⟨.sub, 2⟩, ⟨.mul, 1⟩] := rfl
  refine ⟨hrefused, ?_, ⟨_, hopen⟩, ?_, ⟨_, hok⟩, ?_⟩
  · rw [hlog]
    decide +kernel
  · rw [hlog', hlast _ herror, htrace']
    simp only [List.length_cons, List.length_nil]
    decide +kernel
  · rw [hlog'', (hvalue _ hok).1, htrace'']
    simp only [List.length_cons, List.length_nil]
    decide +kernel

end InfixArithmetic
