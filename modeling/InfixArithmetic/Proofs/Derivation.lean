/-
  Reduction of the tokens that the grammar derives.

  A reduction leaves operators waiting inside the tokens of a subtree, so a subtree has no fixed
  effect on the stacks. It has one as soon as something resolves the operators of its category:
  `resolve_run_tokens` says that the tokens, followed by any such resolution, apply the operators of
  the subtree in postorder and put its value on top, whatever the operands below, whatever waits
  below, as long as the entry on top of the pending stack waits for a subtree of that category
  (`Awaits`), and whatever the resolution goes on to do. Each operator of the grammar, a closing
  parenthesis and the end of the tokens all resolve the category of the subtree before them.
-/
import InfixArithmetic.Expression.Grammar
import InfixArithmetic.Reduction.Basic

namespace InfixArithmetic

/-! ## Levels of categories -/

/-- The precedence of the weakest operator that a subtree has outside parentheses. -/
def Category.level : Category → Nat
  | .expression => 1
  | .term => 2
  | .factor => 3
  | .primary => 4

/-- Whether the entry on top waits for a whole subtree of the category: no operator of the
subtree makes it leave. -/
def Category.Awaits (category : Category) (pending : List Pending) : Prop :=
  ∀ op rest, pending = .operator op :: rest →
    ∀ incoming : Operator, category.level ≤ incoming.precedence →
      op.resolvesBefore incoming = false

/-- Whether every operator of the category leaves. -/
def Category.ResolvedBy (category : Category) (leaves : Operator → Bool) : Prop :=
  ∀ op : Operator, category.level ≤ op.precedence → leaves op = true

namespace Category

theorem ResolvedBy.mono {category narrower : Category} {leaves : Operator → Bool}
    (h : category.ResolvedBy leaves) (hle : category.level ≤ narrower.level) :
    narrower.ResolvedBy leaves :=
  fun op hlevel => h op (Nat.le_trans hle hlevel)

/-- A binary operator resolves the category on whose level it stands. -/
theorem resolvedBy_resolvesBefore {category : Category} {op : Operator}
    (hunary : op.isUnary = false) (hprec : op.precedence = category.level) :
    category.ResolvedBy (·.resolvesBefore op) := by
  intro top hlevel
  rw [← hprec] at hlevel
  simp only [Operator.resolvesBefore, hunary, hlevel, decide_true, Bool.not_false, Bool.and_self]

theorem awaits_nil (category : Category) : category.Awaits [] :=
  fun _ _ h => nomatch h

theorem awaits_openParen (category : Category) (pending : List Pending) :
    category.Awaits (.openParen :: pending) :=
  fun _ _ h => nomatch h

theorem Awaits.mono {category narrower : Category} {pending : List Pending}
    (h : category.Awaits pending) (hle : category.level ≤ narrower.level) :
    narrower.Awaits pending :=
  fun op rest hp incoming hlevel => h op rest hp incoming (Nat.le_trans hle hlevel)

/-- Every operator waits for a whole factor: only a negation is as strong, and it resolves
nothing. -/
theorem awaits_factor (pending : List Pending) : factor.Awaits pending := by
  intro op rest _ incoming hlevel
  cases incoming with
  | neg => exact op.resolvesBefore_neg
  | _ => exact absurd hlevel (by decide)

theorem awaits_term_sum {op : Operator} (hop : op = .add ∨ op = .sub) (pending : List Pending) :
    term.Awaits (.operator op :: pending) := by
  intro op' rest hp incoming hlevel
  obtain ⟨rfl, rfl⟩ : op = op' ∧ pending = rest := by simpa using hp
  rcases hop with rfl | rfl <;> cases incoming <;> first | rfl | exact absurd hlevel (by decide)

end Category

namespace Stacks

variable {α : Type} [Arithmetic α]

/-- What waits for a category is not resolved by its operators. -/
theorem resolve_of_awaits {category : Category} {pending : List Pending}
    (h : category.Awaits pending) {incoming : Operator}
    (hlevel : category.level ≤ incoming.precedence) (operands : List α) :
    resolve (·.resolvesBefore incoming) operands pending = pure ⟨operands, pending⟩ := by
  cases pending with
  | nil => rfl
  | cons entry pending =>
    cases entry with
    | openParen => rfl
    | operator op =>
      exact resolve_of_stays (·.resolvesBefore incoming) (h op pending rfl incoming hlevel)
        operands pending

end Stacks

/-! ## Walks -/

namespace Expression

variable {α : Type} [Arithmetic α]

/-- The value of a tree with the applications of a walk over it. -/
def walk (waiting : Nat) (e : Expression α) : Traced α := ⟨e.applications waiting, .ok e.value⟩

theorem walk_group (waiting : Nat) (inner : Expression α) :
    (group inner).walk waiting = inner.walk waiting := rfl

theorem walk_negation (waiting : Nat) (operand : Expression α) :
    (negation operand).walk waiting = operand.walk waiting >>= fun x =>
      Traced.record ⟨.neg, waiting + 1⟩ (-x) := rfl

theorem walk_binary (waiting : Nat) (op : Operator) (lhs rhs : Expression α) :
    (binary op lhs rhs).walk waiting = lhs.walk waiting >>= fun x =>
      rhs.walk (waiting + 1) >>= fun y =>
        Traced.record ⟨op, waiting + 1⟩ (op.applyBinary x y) :=
  Traced.ext (List.append_assoc _ _ _) (congrArg Except.ok (value_binary op lhs rhs))

/-- Whether the tokens of a subtree, followed by anything that resolves its category, are a walk
over the subtree followed by the same resolution with the value on top. -/
def Reduces (category : Category) (e : Expression α) : Prop :=
  ∀ (leaves : Operator → Bool) (operands : List α) (pending : List Pending),
    category.ResolvedBy leaves → category.Awaits pending →
    (Stacks.run ⟨operands, pending⟩ e.tokens >>= fun state =>
        Stacks.resolve leaves state.operands state.pending) =
      e.walk operands.length >>= fun value => Stacks.resolve leaves (value :: operands) pending

theorem Reduces.mono {category narrower : Category} {e : Expression α} (h : Reduces narrower e)
    (hle : category.level ≤ narrower.level) : Reduces category e :=
  fun leaves operands pending hleaves hawaits =>
    h leaves operands pending (hleaves.mono hle) (hawaits.mono hle)

theorem reduces_number (value : α) : Reduces .primary (number value) :=
  fun _ _ _ _ _ => rfl

theorem reduces_group {inner : Expression α} (h : Reduces .expression inner) :
    Reduces .primary (group inner) := by
  intro leaves operands pending _ _
  have hinner := h (fun _ => true) operands (.openParen :: pending) (fun _ _ => rfl)
    (Category.awaits_openParen _ pending)
  have hrun : Stacks.run ⟨operands, pending⟩ (group inner).tokens =
      inner.walk operands.length >>= fun value => pure ⟨value :: operands, pending⟩ :=
    calc Stacks.run ⟨operands, pending⟩ (group inner).tokens
        = Stacks.run ⟨operands, .openParen :: pending⟩ (inner.tokens ++ [.closeParen]) := rfl
      _ = Stacks.run ⟨operands, .openParen :: pending⟩ inner.tokens >>= fun state =>
            state.step .closeParen := by
          rw [Stacks.run_append]
          simp only [Stacks.run_singleton]
      _ = inner.walk operands.length >>= fun value => pure ⟨value :: operands, pending⟩ := by
          simp only [Stacks.step_closeParen]
          rw [← bind_assoc, hinner, bind_assoc]
          rfl
  rw [hrun, bind_assoc, walk_group]
  rfl

theorem reduces_negation {operand : Expression α} (h : Reduces .factor operand) :
    Reduces .factor (negation operand) := by
  intro leaves operands pending hleaves _
  have hlevel : Category.factor.level ≤ Operator.neg.precedence := Nat.le_refl 3
  have hstep : (⟨operands, pending⟩ : Stacks α).step (.operator .neg) =
      pure ⟨operands, .operator .neg :: pending⟩ := by
    rw [Stacks.step_operator, Stacks.resolve_of_awaits (Category.awaits_factor pending) hlevel]
    rfl
  have hoperand := h leaves operands (.operator .neg :: pending) hleaves
    (Category.awaits_factor _)
  have hneg : leaves .neg = true := hleaves .neg hlevel
  calc (Stacks.run ⟨operands, pending⟩ (negation operand).tokens >>= fun state =>
          Stacks.resolve leaves state.operands state.pending)
      = Stacks.run ⟨operands, .operator .neg :: pending⟩ operand.tokens >>= fun state =>
          Stacks.resolve leaves state.operands state.pending := by
        rw [tokens, Stacks.run_cons, hstep, pure_bind]
    _ = operand.walk operands.length >>= fun x =>
          Stacks.resolve leaves (x :: operands) (.operator .neg :: pending) := hoperand
    _ = (negation operand).walk operands.length >>= fun value =>
          Stacks.resolve leaves (value :: operands) pending := by
        rw [walk_negation, bind_assoc]
        congr 1
        funext x
        rw [Stacks.resolve_of_leaves leaves hneg, Operator.applyTop_neg]
        rfl

/-- A binary operator between two subtrees: it resolves the left one when it arrives, and waits
below the right one. -/
theorem reduces_binary {category right : Category} {op : Operator} {lhs rhs : Expression α}
    (hunary : op.isUnary = false) (hprec : op.precedence = category.level)
    (hright : category.level ≤ right.level)
    (hawaits : ∀ pending, right.Awaits (.operator op :: pending))
    (hl : Reduces category lhs) (hr : Reduces right rhs) :
    Reduces category (binary op lhs rhs) := by
  intro leaves operands pending hleaves hpending
  have hlhs := hl (·.resolvesBefore op) operands pending
    (Category.resolvedBy_resolvesBefore hunary hprec) hpending
  have hrhs := fun x => hr leaves (x :: operands) (.operator op :: pending)
    (hleaves.mono hright) (hawaits pending)
  have hleave : leaves op = true := hleaves op (Nat.le_of_eq hprec.symm)
  have hstop := fun x =>
    Stacks.resolve_of_awaits hpending (Nat.le_of_eq hprec.symm) (x :: operands)
  calc (Stacks.run ⟨operands, pending⟩ (binary op lhs rhs).tokens >>= fun state =>
          Stacks.resolve leaves state.operands state.pending)
      = (Stacks.run ⟨operands, pending⟩ lhs.tokens >>= fun state =>
            Stacks.resolve (·.resolvesBefore op) state.operands state.pending) >>= fun state =>
          Stacks.run ⟨state.operands, .operator op :: state.pending⟩ rhs.tokens >>= fun state =>
            Stacks.resolve leaves state.operands state.pending := by
        rw [tokens, Stacks.run_append]
        simp only [Stacks.run_cons, Stacks.step_operator, bind_assoc, pure_bind]
    _ = lhs.walk operands.length >>= fun x =>
          Stacks.run ⟨x :: operands, .operator op :: pending⟩ rhs.tokens >>= fun state =>
            Stacks.resolve leaves state.operands state.pending := by
        rw [hlhs, bind_assoc]
        simp only [hstop, pure_bind]
    _ = lhs.walk operands.length >>= fun x => rhs.walk (operands.length + 1) >>= fun y =>
          Stacks.resolve leaves (y :: x :: operands) (.operator op :: pending) := by
        simp only [hrhs, List.length_cons]
    _ = (binary op lhs rhs).walk operands.length >>= fun value =>
          Stacks.resolve leaves (value :: operands) pending := by
        rw [walk_binary]
        simp only [bind_assoc, Stacks.resolve_of_leaves leaves hleave,
          Operator.applyTop_binary hunary]
        rfl

/-- What the grammar derives reduces, and its category says how much must be resolved after it. -/
theorem Derives.reduces {unaryMinus : Bool} {category : Category} {e : Expression α}
    (h : e.Derives unaryMinus category) : Reduces category e := by
  induction h with
  | sum hop _ _ ihl ihr =>
    refine reduces_binary ?_ ?_ (by decide) (Category.awaits_term_sum hop) ihl ihr
    · rcases hop with rfl | rfl <;> rfl
    · rcases hop with rfl | rfl <;> rfl
  | product hop _ _ ihl ihr =>
    refine reduces_binary ?_ ?_ (by decide) (fun _ => Category.awaits_factor _) ihl ihr
    · rcases hop with rfl | rfl <;> rfl
    · rcases hop with rfl | rfl <;> rfl
  | minus _ _ ih => exact reduces_negation ih
  | literal leaf => exact reduces_number leaf
  | parentheses _ ih => exact reduces_group ih
  | ofTerm _ ih => exact ih.mono (by decide)
  | ofFactor _ ih => exact ih.mono (by decide)
  | ofPrimary _ ih => exact ih.mono (by decide)

/-- The tokens of a derivation are reduced to its value, and the operators are applied in the order
of a walk. -/
theorem Derives.reduce_tokens {unaryMinus : Bool} {e : Expression α}
    (h : e.Derives unaryMinus .expression) : reduce e.tokens = e.walk 0 := by
  have hrun := h.reduces (fun _ => true) [] [] (fun _ _ => rfl) (Category.awaits_nil _)
  have hreduce : reduce e.tokens =
      (Stacks.run ⟨[], []⟩ e.tokens >>= fun state =>
        Stacks.resolve (fun _ => true) state.operands state.pending) >>= Stacks.single := by
    rw [bind_assoc]
    rfl
  rw [hreduce, hrun, bind_assoc]
  exact bind_pure _

end Expression

end InfixArithmetic
