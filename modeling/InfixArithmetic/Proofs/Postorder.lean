/-
  The applications of a derivation, node by node.

  The ways in `Expression.postorder` are those that lead to an operator, each of them once
  (`mem_postorder_iff`, `nodup_postorder`). A walk over a tree makes one application for each, in
  that order, and as many operands wait below its result as the way goes right
  (`forall₂_applications`). Reduction of what the grammar derives is such a walk, and the tree is
  the only one with these tokens, so the record of a reduction is the postorder of its syntax tree
  (`trace_reduce_postorder`).
-/
import InfixArithmetic.Expression.Node
import InfixArithmetic.Proofs.Unambiguity
import InfixArithmetic.Real.Literal
import Mathlib.Data.List.Forall2
import Mathlib.Data.List.Nodup

namespace InfixArithmetic

namespace Expression

variable {ν : Type}

/-! ## The ways to operators -/

/-- The ways of a tree's postorder are those that lead to an operator. -/
theorem mem_postorder_iff {e : Expression ν} {way : List Branch} :
    way ∈ e.postorder ↔ ∃ op, e.operatorAt? way = some op := by
  induction e generalizing way with
  | number leaf =>
    cases way <;> simp [postorder, operatorAt?, subtree?, operator?]
  | negation operand ih =>
    cases way with
    | nil => simp [postorder, operatorAt?, subtree?, operator?]
    | cons branch way =>
      cases branch <;>
        simp [postorder, operatorAt?, subtree?, ih]
  | group inner ih =>
    cases way with
    | nil => simp [postorder, operatorAt?, subtree?, operator?]
    | cons branch way =>
      cases branch <;>
        simp [postorder, operatorAt?, subtree?, ih]
  | binary op lhs rhs ihl ihr =>
    cases way with
    | nil => simp [postorder, operatorAt?, subtree?, operator?]
    | cons branch way =>
      cases branch <;>
        simp [postorder, operatorAt?, subtree?, ihl, ihr]

theorem nodup_map_cons {ways : List (List Branch)} (h : ways.Nodup) (branch : Branch) :
    (ways.map (branch :: ·)).Nodup :=
  h.map fun _ _ heq => (List.cons.inj heq).2

/-- No way is in the postorder twice. -/
theorem nodup_postorder (e : Expression ν) : e.postorder.Nodup := by
  induction e with
  | number leaf => exact List.nodup_nil
  | group inner ih => exact nodup_map_cons ih .inside
  | negation operand ih =>
    refine (nodup_map_cons ih .inside).append (List.nodup_singleton []) ?_
    simp
  | binary op lhs rhs ihl ihr =>
    have hoperands : (lhs.postorder.map (.left :: ·) ++ rhs.postorder.map (.right :: ·)).Nodup := by
      refine (nodup_map_cons ihl .left).append (nodup_map_cons ihr .right) ?_
      simp [List.disjoint_left]
    refine hoperands.append (List.nodup_singleton []) ?_
    simp

/-! ## The applications of a walk -/

/-- Whether an application is that of the operator a way leads to, while `waiting` operands wait
below the whole tree. -/
def IsApplicationAt (e : Expression ν) (waiting : Nat) (way : List Branch) (applied : Applied) :
    Prop :=
  e.operatorAt? way = some applied.operator ∧
    applied.operands = waiting + way.count .right + 1

/-- The applications of a subtree right below the root are applications of the tree; a further
operand waits below them if the subtree is a right one. -/
theorem forall₂_map_cons {e below : Expression ν} {branch : Branch} {waiting : Nat}
    {ways : List (List Branch)} {trace : List Applied}
    (hbelow : ∀ way, e.operatorAt? (branch :: way) = below.operatorAt? way)
    (h : List.Forall₂ (below.IsApplicationAt (waiting + [branch].count .right)) ways trace) :
    List.Forall₂ (e.IsApplicationAt waiting) (ways.map (branch :: ·)) trace := by
  rw [List.forall₂_map_left_iff]
  refine h.imp fun way applied ⟨hop, hoperands⟩ => ⟨(hbelow way).trans hop, ?_⟩
  have hcount : (branch :: way).count .right = [branch].count .right + way.count .right := by
    rw [← List.count_append]
    rfl
  omega

/-- A walk makes one application for each way to an operator. -/
theorem forall₂_applications (e : Expression ν) (waiting : Nat) :
    List.Forall₂ (e.IsApplicationAt waiting) e.postorder (e.applications waiting) := by
  induction e generalizing waiting with
  | number leaf => exact .nil
  | group inner ih => exact forall₂_map_cons (fun _ => rfl) (ih waiting)
  | negation operand ih =>
    exact List.rel_append (forall₂_map_cons (fun _ => rfl) (ih waiting)) (.cons ⟨rfl, rfl⟩ .nil)
  | binary op lhs rhs ihl ihr =>
    have hlhs : List.Forall₂ ((binary op lhs rhs).IsApplicationAt waiting)
        (lhs.postorder.map (.left :: ·)) (lhs.applications waiting) :=
      forall₂_map_cons (fun _ => rfl) (ihl waiting)
    have hrhs : List.Forall₂ ((binary op lhs rhs).IsApplicationAt waiting)
        (rhs.postorder.map (.right :: ·)) (rhs.applications (waiting + 1)) :=
      forall₂_map_cons (fun _ => rfl) (ihr (waiting + 1))
    exact List.rel_append (List.rel_append hlhs hrhs) (.cons ⟨rfl, rfl⟩ .nil)

end Expression

/-! ## The record of a reduction -/

/-- The record of a reduction of derivable tokens is the postorder of their syntax tree, which is
the only one. Each operator of the tree is applied once, those of its left operand first, then those
of its right operand, and then the operator itself; and with its result there are as many operands
on the stack as there are binary operators above it that have it in their right operand, and one. -/
theorem trace_reduce_postorder {α : Type} [Arithmetic α] {unaryMinus : Bool} {e : Expression α}
    {tokens : List (Token α)} (h : e.Derives unaryMinus .expression) (htokens : e.tokens = tokens) :
    (∀ unaryMinus' e', e'.Derives unaryMinus' .expression → e'.tokens = tokens → e' = e) ∧
      (e.postorder.Nodup ∧ ∀ way, way ∈ e.postorder ↔ ∃ op, e.operatorAt? way = some op) ∧
      List.Forall₂
        (fun way applied => e.operatorAt? way = some applied.operator ∧
          applied.operands = 1 + way.count .right)
        e.postorder (reduce tokens).trace := by
  subst htokens
  refine ⟨fun unaryMinus' e' h' => h'.eq_of_tokens_eq h,
    ⟨e.nodup_postorder, fun way => Expression.mem_postorder_iff⟩, ?_⟩
  rw [h.reduce_tokens]
  refine (e.forall₂_applications 0).imp fun way applied ⟨hop, hoperands⟩ => ⟨hop, ?_⟩
  omega

/-- A negation of a group in a right operand, and a chain of quotients in front of it. -/
theorem trace_reduce_postorder_negated_group :
    let e : Expression Float :=
      .binary .sub (.binary .div (.binary .div (.number 8) (.number 4)) (.number 2))
        (.binary .mul (.number 3)
          (.negation (.group (.binary .add (.number 5) (.number 6)))))
    let tokens : List (Token Float) :=
      [.number 8, .operator .div, .number 4, .operator .div, .number 2, .operator .sub,
        .number 3, .operator .mul, .operator .neg, .openParen, .number 5, .operator .add,
        .number 6, .closeParen]
    e.Derives true .expression ∧ e.tokens = tokens ∧
      e.postorder = [[.left, .left], [.left], [.right, .right, .inside, .inside],
        [.right, .right], [.right], []] ∧
      (reduce tokens).trace = [⟨.div, 1⟩, ⟨.div, 1⟩, ⟨.add, 3⟩, ⟨.neg, 3⟩, ⟨.mul, 2⟩, ⟨.sub, 1⟩] ∧
      List.Forall₂
        (fun way applied => e.operatorAt? way = some applied.operator ∧
          applied.operands = 1 + way.count .right)
        e.postorder (reduce tokens).trace := by
  intro e tokens
  have hnumber : ∀ x : Float, (Expression.number x).Derives true .factor := fun x =>
    .ofPrimary (.literal x)
  have hsum : (Expression.binary .add (.number (5 : Float)) (.number 6)).Derives true .expression :=
    .sum (.inl rfl) (.ofTerm (.ofFactor (hnumber 5))) (.ofFactor (hnumber 6))
  have hquotient : (Expression.binary .div (.number (8 : Float)) (.number 4)).Derives true .term :=
    .product (.inr rfl) (.ofFactor (hnumber 8)) (hnumber 4)
  have hderives : e.Derives true .expression :=
    .sum (.inr rfl) (.ofTerm (.product (.inr rfl) hquotient (hnumber 2)))
      (.product (.inl rfl) (.ofFactor (hnumber 3))
        (.minus rfl (.ofPrimary (.parentheses hsum))))
  exact ⟨hderives, rfl, rfl, rfl, (trace_reduce_postorder hderives rfl).2.2⟩

end InfixArithmetic
