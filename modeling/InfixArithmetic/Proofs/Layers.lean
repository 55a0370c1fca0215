/-
  How the stacks of a reduction look between two tokens, and how high they grow.

  An operator waits below another only if the upper one did not resolve it (`Operator.StandsOn`).
  One token keeps this of the whole pending stack, and adds at most one entry to both stacks
  together (`Stacks.IsSettled.step`); hence so does a run. Between two parentheses precedence then
  leaves room for one sum, one product above it, and negations above both (`IsLayered`).

  In tokens that the grammar derives, an operand waits for each sum and each product that does. So
  on each level of nesting at most two operands wait, and the nesting bounds what any application
  finds on the stack (`Expression.Derives.appliesWithin`), whatever the number of tokens.
-/
import InfixArithmetic.Proofs.Counting
import InfixArithmetic.Proofs.Derivation
import InfixArithmetic.Real.Literal
import Mathlib.Data.List.Chain

namespace InfixArithmetic

/-! ## Rows of waiting operators -/

/-- Whether waiting operators, the lowest first, are at most one sum or difference, then at most one
product or quotient, then negations. -/
def IsLayered (ops : List Operator) : Prop :=
  ∃ sums products negations, ops = sums ++ products ++ negations ∧
    (sums.length ≤ 1 ∧ ∀ op ∈ sums, op = .add ∨ op = .sub) ∧
    (products.length ≤ 1 ∧ ∀ op ∈ products, op = .mul ∨ op = .div) ∧
    ∀ op ∈ negations, op = .neg

namespace Operator

/-- Whether an operator can come to wait on top of another: it does not resolve it. -/
def StandsOn (upper lower : Operator) : Prop := lower.resolvesBefore upper = false

/-- What stands on an operator is a negation or binds tighter. -/
theorem StandsOn.eq_neg_or_lt {upper lower : Operator} (h : upper.StandsOn lower) :
    upper = neg ∨ lower.precedence < upper.precedence := by
  cases hunary : upper.isUnary with
  | true => exact .inl (isUnary_eq_true_iff.mp hunary)
  | false =>
    rw [StandsOn, resolvesBefore, hunary] at h
    exact .inr (Nat.lt_of_not_le (of_decide_eq_false h))

theorem isSum_or_two_le_precedence (op : Operator) :
    (op = add ∨ op = sub) ∨ 2 ≤ op.precedence := by
  cases op <;> decide

theorem isProduct_or_eq_neg {op : Operator} (h : 2 ≤ op.precedence) :
    (op = mul ∨ op = div) ∨ op = neg := by
  cases op with
  | add | sub => exact absurd h (by decide)
  | mul | div | neg => decide

end Operator

/-- Only negations stand on a product or a negation. -/
theorem eq_neg_of_isChain {op : Operator} {ops : List Operator} (hop : 2 ≤ op.precedence)
    (h : (op :: ops).IsChain fun lower upper => upper.StandsOn lower) :
    ∀ upper ∈ ops, upper = .neg := by
  induction ops generalizing op with
  | nil => exact List.forall_mem_nil _
  | cons next ops ih =>
    obtain ⟨hnext, htail⟩ := List.isChain_cons_cons.mp h
    have hneg : next = .neg := by
      rcases hnext.eq_neg_or_lt with hneg | hlt
      · exact hneg
      · cases next with
        | neg => rfl
        | _ => exact absurd (Nat.lt_of_le_of_lt hop hlt) (by decide)
    refine List.forall_mem_cons.mpr ⟨hneg, ih ?_ htail⟩
    rw [hneg]
    decide

theorem exists_products_of_isChain {op : Operator} {ops : List Operator} (hop : 2 ≤ op.precedence)
    (h : (op :: ops).IsChain fun lower upper => upper.StandsOn lower) :
    ∃ products negations, op :: ops = products ++ negations ∧
      (products.length ≤ 1 ∧ ∀ op ∈ products, op = .mul ∨ op = .div) ∧
      ∀ op ∈ negations, op = .neg := by
  have hops := eq_neg_of_isChain hop h
  rcases Operator.isProduct_or_eq_neg hop with hproduct | hneg
  · exact ⟨[op], ops, rfl, ⟨Nat.le_refl 1, List.forall_mem_singleton.mpr hproduct⟩, hops⟩
  · exact ⟨[], op :: ops, rfl, ⟨Nat.zero_le 1, List.forall_mem_nil _⟩,
      List.forall_mem_cons.mpr ⟨hneg, hops⟩⟩

/-- A sum has room for one product and negations on top of it. -/
theorem isLayered_of_isChain {ops : List Operator}
    (h : ops.IsChain fun lower upper => upper.StandsOn lower) : IsLayered ops := by
  cases ops with
  | nil => exact ⟨[], [], [], rfl, by simp, by simp, by simp⟩
  | cons op ops =>
    rcases op.isSum_or_two_le_precedence with hsum | hop
    · have hone : [op].length ≤ 1 ∧ ∀ sum ∈ [op], sum = Operator.add ∨ sum = Operator.sub :=
        ⟨Nat.le_refl 1, List.forall_mem_singleton.mpr hsum⟩
      cases ops with
      | nil => exact ⟨[op], [], [], rfl, hone, by simp, by simp⟩
      | cons next ops =>
        obtain ⟨hnext, htail⟩ := List.isChain_cons_cons.mp h
        have hlevel : 2 ≤ next.precedence := by
          rcases hnext.eq_neg_or_lt with rfl | hlt
          · decide
          · rcases hsum with rfl | rfl <;> exact hlt
        obtain ⟨products, negations, heq, hproducts, hnegations⟩ :=
          exists_products_of_isChain hlevel htail
        exact ⟨[op], products, negations, by rw [heq]; rfl, hone, hproducts, hnegations⟩
    · obtain ⟨products, negations, heq, hproducts, hnegations⟩ := exists_products_of_isChain hop h
      exact ⟨[], products, negations, heq, by simp, hproducts, hnegations⟩

/-! ## Entries of the pending stack -/

namespace Pending

/-- Whether an entry can come to wait on top of another; a parenthesis can, and anything can wait on
top of it. -/
def StandsOn : Pending → Pending → Prop
  | operator upper, operator lower => upper.StandsOn lower
  | _, _ => True

/-- A release stops at an operator only if that operator does not leave. -/
theorem stays_of_release {leaves : Operator → Bool} {pending rest : List Pending} {op : Operator}
    (h : (release leaves pending).2 = operator op :: rest) : leaves op = false := by
  induction pending with
  | nil => cases h
  | cons entry pending ih =>
    cases entry with
    | openParen => cases h
    | operator top =>
      cases htop : leaves top with
      | true =>
        simp only [release, htop, if_true] at h
        exact ih h
      | false =>
        simp only [release, htop, Bool.false_eq_true, if_false] at h
        cases h
        exact htop

/-- A row of operators without a parenthesis between them is layered. -/
theorem isLayered_of_infix {pending : List Pending} {ops : List Operator}
    (h : pending.IsChain StandsOn) (hops : ops.map operator <:+: pending) :
    IsLayered ops.reverse := by
  have hchain := h.infix hops
  rw [List.isChain_map] at hchain
  exact isLayered_of_isChain (List.isChain_reverse.mpr hchain)

end Pending

/-! ## Stacks between two tokens -/

namespace Stacks

variable {α : Type}

/-- Whether each entry can have come to wait where it does, and the stacks hold at most one entry
for each of the tokens that were read. -/
structure IsSettled (state : Stacks α) (read : Nat) : Prop where
  standsOn : state.pending.IsChain Pending.StandsOn
  size : state.operands.length + state.pending.length ≤ read

theorem isSettled_empty : (empty : Stacks α).IsSettled 0 := ⟨.nil, Nat.le_refl 0⟩

variable [Arithmetic α]

/-- A resolution leaves no more operands than there were. -/
theorem length_operands_of_resolve {leaves : Operator → Bool} {operands : List α}
    {pending : List Pending} {state : Stacks α}
    (h : (resolve leaves operands pending).result = .ok state) :
    state.operands.length ≤ operands.length := by
  rw [result_resolve, bind_eq_ok_iff] at h
  obtain ⟨rest, hrun, heq⟩ := h
  cases heq
  have hlength := length_of_runPostfix hrun
  rw [PostfixItem.countP_isNumber_map_operator] at hlength
  show rest.length ≤ operands.length
  omega

theorem IsSettled.resolve {leaves : Operator → Bool} {state state' : Stacks α} {read : Nat}
    (h : state.IsSettled read)
    (hresolve : (resolve leaves state.operands state.pending).result = .ok state') :
    state'.IsSettled read := by
  have hoperands := length_operands_of_resolve hresolve
  have hsuffix := Pending.suffix_release leaves state.pending
  rw [← pending_of_resolve hresolve] at hsuffix
  refine ⟨h.standsOn.suffix hsuffix, ?_⟩
  have hlength := hsuffix.length_le
  have hsize := h.size
  omega

/-- One token keeps the stacks settled. -/
theorem IsSettled.step {state state' : Stacks α} {read : Nat} {token : Token α}
    (h : state.IsSettled read) (hstep : (state.step token).result = .ok state') :
    state'.IsSettled (read + 1) := by
  cases token with
  | number value =>
    cases hstep
    have hsize := h.size
    exact ⟨h.standsOn, by simp only [List.length_cons]; omega⟩
  | openParen =>
    cases hstep
    have hsize := h.size
    exact ⟨h.standsOn.cons fun _ _ => trivial, by simp only [List.length_cons]; omega⟩
  | operator incoming =>
    rw [step_operator, Traced.result_bind_eq_ok_iff] at hstep
    obtain ⟨middle, hresolve, hpush⟩ := hstep
    cases hpush
    have hmiddle := h.resolve hresolve
    have hsize := hmiddle.size
    refine ⟨hmiddle.standsOn.cons fun entry hentry => ?_, by simp only [List.length_cons]; omega⟩
    cases entry with
    | openParen => trivial
    | operator op =>
      obtain ⟨rest, hrest⟩ := List.head?_eq_some_iff.mp hentry
      have hstop := (pending_of_resolve hresolve).symm.trans hrest
      have hstays := Pending.stays_of_release hstop
      exact hstays
  | closeParen =>
    rw [step_closeParen, Traced.result_bind_eq_ok_iff] at hstep
    obtain ⟨middle, hresolve, hclose⟩ := hstep
    obtain ⟨entry, hpending, hoperands⟩ := result_close_eq_ok_iff.mp hclose
    obtain ⟨hstandsOn, hsize⟩ := h.resolve hresolve
    rw [hpending] at hstandsOn hsize
    rw [List.length_cons] at hsize
    exact ⟨hstandsOn.tail, by rw [hoperands]; omega⟩

/-- A list of tokens keeps the stacks settled. -/
theorem IsSettled.run {state state' : Stacks α} {read : Nat} {tokens : List (Token α)}
    (h : state.IsSettled read) (hrun : (state.run tokens).result = .ok state') :
    state'.IsSettled (read + tokens.length) := by
  induction tokens generalizing state read with
  | nil =>
    cases hrun
    exact h
  | cons token tokens ih =>
    rw [run_cons, Traced.result_bind_eq_ok_iff] at hrun
    obtain ⟨middle, hstep, hrest⟩ := hrun
    have hsettled := ih (h.step hstep) hrest
    rw [List.length_cons]
    rwa [Nat.add_assoc, Nat.add_comm 1] at hsettled

end Stacks

/-! ## Nesting -/

/-- Whether never more than `depth` parentheses are open at once. -/
def Token.NestsWithin {α : Type} (depth : Nat) (tokens : List (Token α)) : Prop :=
  ∀ front, front <+: tokens →
    front.countP Token.isOpen ≤ depth + front.countP Token.isClose

theorem Token.nestsWithin_append {α : Type} {depth : Nat} {front back : List (Token α)}
    (h : front.countP Token.isOpen = front.countP Token.isClose) :
    NestsWithin depth (front ++ back) ↔ NestsWithin depth front ∧ NestsWithin depth back := by
  constructor
  · intro hboth
    refine ⟨fun part hpart => hboth part (hpart.trans (List.prefix_append front back)), ?_⟩
    intro part hpart
    have hwhole := hboth (front ++ part) ((List.prefix_append_right_inj front).mpr hpart)
    rw [List.countP_append, List.countP_append] at hwhole
    omega
  · rintro ⟨hfront, hback⟩ part ⟨rest, heq⟩
    rcases List.append_eq_append_iff.mp heq with ⟨middle, hpart, -⟩ | ⟨middle, hpart, hrest⟩
    · exact hfront part ⟨middle, hpart.symm⟩
    · have hmiddle := hback middle ⟨rest, hrest.symm⟩
      rw [hpart, List.countP_append, List.countP_append]
      omega

namespace Expression

variable {ν : Type}

theorem countP_isOpen_tokens (e : Expression ν) :
    e.tokens.countP Token.isOpen = e.tokens.countP Token.isClose := by
  induction e with
  | number leaf => rfl
  | negation operand ih => simpa [tokens, Token.isOpen, Token.isClose] using ih
  | binary op lhs rhs ihl ihr => simp [tokens, Token.isOpen, Token.isClose, ihl, ihr]
  | group inner ih =>
    rw [tokens, List.countP_cons_of_pos rfl, List.countP_cons_of_neg Bool.false_ne_true,
      List.countP_append, List.countP_append, ih]
    rfl

/-- A tree is nested as deep as its tokens open parentheses. -/
theorem nestsWithin_tokens_iff {e : Expression ν} {depth : Nat} :
    Token.NestsWithin depth e.tokens ↔ e.nesting ≤ depth := by
  -- opening more than `depth` is closing beyond it, with the parentheses turned round
  change ClosesWithin Token.isClose Token.isOpen depth e.tokens ↔ _
  induction e generalizing depth with
  | number leaf =>
    exact ⟨fun _ => Nat.zero_le depth, fun _ =>
      (closesWithin_cons_of_neither rfl rfl).mpr (closesWithin_nil depth)⟩
  | negation operand ih => exact (closesWithin_cons_of_neither rfl rfl).trans ih
  | binary op lhs rhs ihl ihr =>
    refine (Token.nestsWithin_append lhs.countP_isOpen_tokens).trans (Iff.trans ?_ Nat.max_le.symm)
    exact and_congr ihl ((closesWithin_cons_of_neither rfl rfl).trans ihr)
  | group inner ih =>
    refine (closesWithin_cons_of_close rfl rfl).trans ?_
    constructor
    · rintro ⟨outer, rfl, hinner⟩
      exact Nat.succ_le_succ (ih.mp (closesWithin_concat_iff.mp hinner).1)
    · intro hle
      obtain ⟨outer, rfl⟩ := Nat.exists_eq_add_of_le' (Nat.le_trans (Nat.le_add_left 1 _) hle)
      refine ⟨outer, rfl, closesWithin_concat_iff.mpr ⟨ih.mpr (Nat.le_of_succ_le_succ hle), ?_⟩⟩
      rw [List.countP_append, List.countP_append, inner.countP_isOpen_tokens]
      exact Nat.le_trans (Nat.le_add_right _ 1) (Nat.le_add_left _ outer)

/-- Whether an application finds at most so many operands more than wait below the tree and for its
groups, two for each level of nesting. -/
def AppliesWithin (e : Expression ν) (height : Nat) : Prop :=
  ∀ waiting, ∀ applied ∈ e.applications waiting,
    applied.operands ≤ waiting + 2 * e.nesting + height

theorem AppliesWithin.mono {e : Expression ν} {height height' : Nat} (h : e.AppliesWithin height)
    (hle : height ≤ height') : e.AppliesWithin height' :=
  fun waiting applied hmem => Nat.le_trans (h waiting applied hmem) (Nat.add_le_add_left hle _)

theorem appliesWithin_number (leaf : ν) (height : Nat) : (number leaf).AppliesWithin height :=
  fun _ => List.forall_mem_nil _

theorem AppliesWithin.group {inner : Expression ν} {height : Nat}
    (h : inner.AppliesWithin (height + 2)) : (group inner).AppliesWithin height := by
  intro waiting applied hmem
  have hinner := h waiting applied hmem
  show applied.operands ≤ waiting + 2 * (inner.nesting + 1) + height
  omega

theorem AppliesWithin.negation {operand : Expression ν} {height : Nat}
    (h : operand.AppliesWithin (height + 1)) : (negation operand).AppliesWithin (height + 1) := by
  intro waiting applied hmem
  rcases List.mem_append.mp hmem with hoperand | hself
  · exact h waiting applied hoperand
  · rw [List.mem_singleton.mp hself]
    show waiting + 1 ≤ _
    omega

/-- The left operand waits while the right one is worked off. -/
theorem AppliesWithin.binary {op : Operator} {lhs rhs : Expression ν} {height : Nat}
    (hl : lhs.AppliesWithin (height + 1)) (hr : rhs.AppliesWithin height) :
    (binary op lhs rhs).AppliesWithin (height + 1) := by
  intro waiting applied hmem
  have hlhs : lhs.nesting ≤ max lhs.nesting rhs.nesting := Nat.le_max_left _ _
  have hrhs : rhs.nesting ≤ max lhs.nesting rhs.nesting := Nat.le_max_right _ _
  show applied.operands ≤ waiting + 2 * max lhs.nesting rhs.nesting + (height + 1)
  rcases List.mem_append.mp hmem with hoperands | hself
  · rcases List.mem_append.mp hoperands with hleft | hright
    · have hle := hl waiting applied hleft
      omega
    · have hle := hr (waiting + 1) applied hright
      omega
  · rw [List.mem_singleton.mp hself]
    show waiting + 1 ≤ _
    omega

end Expression

/-- How many operands the applications of a category may find, without groups. -/
def Category.height : Category → Nat
  | expression => 3
  | term => 2
  | factor | primary => 1

/-- On each level of nesting the left operand of one sum waits, and that of one product. -/
theorem Expression.Derives.appliesWithin {ν : Type} {unaryMinus : Bool} {category : Category}
    {e : Expression ν} (h : e.Derives unaryMinus category) : e.AppliesWithin category.height := by
  induction h with
  | sum _ _ _ ihl ihr => exact ihl.binary ihr
  | product _ _ _ ihl ihr => exact ihl.binary ihr
  | minus _ _ ih => exact ih.negation
  | literal leaf => exact appliesWithin_number leaf _
  | parentheses _ ih => exact ih.group
  | ofTerm _ ih => exact ih.mono (by decide)
  | ofFactor _ ih => exact ih.mono (by decide)
  | ofPrimary _ ih => exact ih

/-! ## All runs -/

/-- Between any two tokens of a reduction, operators that wait with no parenthesis between them are
layered, and the stacks hold at most one entry for each token that was read. Hence, if the tokens
are derivable and at most `depth` of their parentheses are open at once, no application leaves more
than `2 * depth + 3` operands, however many tokens there are. -/
theorem stacks_stay_layered {α : Type} [Arithmetic α] (tokens : List (Token α)) :
    (∀ front state, front <+: tokens → (Stacks.run .empty front).result = .ok state →
        (∀ ops : List Operator, ops.map Pending.operator <:+: state.pending →
            IsLayered ops.reverse) ∧
          state.operands.length + state.pending.length ≤ front.length) ∧
      ∀ (unaryMinus : Bool) (e : Expression α) (depth : Nat), e.Derives unaryMinus .expression →
        e.tokens = tokens → Token.NestsWithin depth tokens →
        ∀ applied ∈ (reduce tokens).trace, applied.operands ≤ 2 * depth + 3 := by
  constructor
  · intro front state _ hrun
    have hsettled := Stacks.isSettled_empty.run hrun
    rw [Nat.zero_add] at hsettled
    exact ⟨fun ops hops => Pending.isLayered_of_infix hsettled.standsOn hops, hsettled.size⟩
  · intro unaryMinus e depth hderives htokens hnests applied hmem
    subst htokens
    have hnesting := Expression.nestsWithin_tokens_iff.mp hnests
    rw [hderives.reduce_tokens] at hmem
    have hle : applied.operands ≤ 0 + 2 * e.nesting + 3 := hderives.appliesWithin 0 applied hmem
    omega

/-- The second level of nesting is full when the last number is negated: two operands wait on the
outer level, two on the inner one, and the bound is reached. -/
theorem stacks_stay_layered_full :
    let e : Expression Float :=
      .binary .add (.number 1) (.binary .mul (.number 2) (.negation (.group
        (.binary .sub (.number 3) (.binary .div (.number 4) (.negation (.number 5)))))))
    let front : List (Token Float) :=
      [.number 1, .operator .add, .number 2, .operator .mul, .operator .neg, .openParen,
        .number 3, .operator .sub, .number 4, .operator .div, .operator .neg, .number 5]
    let state : Stacks Float :=
      ⟨[5, 4, 3, 2, 1], [.operator .neg, .operator .div, .operator .sub, .openParen,
        .operator .neg, .operator .mul, .operator .add]⟩
    e.tokens = front ++ [.closeParen] ∧ (Stacks.run .empty front).result = .ok state ∧
      IsLayered [.add, .mul, .neg] ∧ IsLayered [.sub, .div, .neg] ∧
      state.operands.length + state.pending.length ≤ front.length ∧
      e.Derives true .expression ∧ Token.NestsWithin 1 e.tokens ∧
      ⟨.neg, 2 * 1 + 3⟩ ∈ (reduce e.tokens).trace ∧
      ∀ applied ∈ (reduce e.tokens).trace, applied.operands ≤ 2 * 1 + 3 := by
  intro e front state
  have hnumber : ∀ x : Float, (Expression.number x).Derives true .factor := fun x =>
    .ofPrimary (.literal x)
  have hinner : (Expression.binary .sub (.number (3 : Float))
      (.binary .div (.number 4) (.negation (.number 5)))).Derives true .expression :=
    .sum (.inr rfl) (.ofTerm (.ofFactor (hnumber 3)))
      (.product (.inr rfl) (.ofFactor (hnumber 4)) (.minus rfl (hnumber 5)))
  have hderives : e.Derives true .expression :=
    .sum (.inl rfl) (.ofTerm (.ofFactor (hnumber 1)))
      (.product (.inl rfl) (.ofFactor (hnumber 2))
        (.minus rfl (.ofPrimary (.parentheses hinner))))
  have hnests : Token.NestsWithin 1 e.tokens :=
    Expression.nestsWithin_tokens_iff.mpr (Nat.le_refl 1)
  have hrun : (Stacks.run .empty front).result = .ok state := rfl
  obtain ⟨hpoints, hbound⟩ := stacks_stay_layered e.tokens
  obtain ⟨hlayers, hsize⟩ := hpoints front state ⟨[.closeParen], rfl⟩ hrun
  have houter : [Operator.neg, .mul, .add].map Pending.operator <:+: state.pending :=
    ⟨[.operator .neg, .operator .div, .operator .sub, .openParen], [], rfl⟩
  have hgroup : [Operator.neg, .div, .sub].map Pending.operator <:+: state.pending :=
    ⟨[], [.openParen, .operator .neg, .operator .mul, .operator .add], rfl⟩
  exact ⟨rfl, hrun, hlayers _ houter, hlayers _ hgroup, hsize, hderives, hnests,
    List.mem_cons_self, hbound true e 1 hderives rfl hnests⟩

end InfixArithmetic
