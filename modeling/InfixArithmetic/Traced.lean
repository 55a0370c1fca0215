/-
  Computations that apply operators: a record of every application made, and a value or an error.

  The record is kept when the computation fails, up to the failure. `bind` runs the second
  computation only if the first succeeded and puts its applications behind the first one's.
-/
import InfixArithmetic.EvalError

namespace InfixArithmetic

/-- One application of an operator. -/
structure Applied where
  operator : Operator
  /-- The number of operands on the stack once the result was there. -/
  operands : Nat
  deriving DecidableEq, Repr

/-- A computation's applications and its outcome. -/
@[ext]
structure Traced (α : Type) where
  /-- The applications made, first one first. -/
  trace : List Applied
  result : Except EvalError α

namespace Traced

variable {α β : Type}

/-- A value, with nothing applied. -/
def done (a : α) : Traced α := ⟨[], .ok a⟩

/-- A failure, with nothing applied. -/
def fail (e : EvalError) : Traced α := ⟨[], .error e⟩

/-- A value, reached by one application. -/
def record (applied : Applied) (a : α) : Traced α := ⟨[applied], .ok a⟩

/-- One computation after the other, the second with the value of the first. -/
def bind (x : Traced α) (f : α → Traced β) : Traced β :=
  match x.result with
  | .ok a => ⟨x.trace ++ (f a).trace, (f a).result⟩
  | .error e => ⟨x.trace, .error e⟩

instance : Monad Traced where
  pure := done
  bind := bind

/-! ## Laws -/

theorem bind_of_ok {x : Traced α} {a : α} (h : x.result = .ok a) (f : α → Traced β) :
    x >>= f = ⟨x.trace ++ (f a).trace, (f a).result⟩ := by
  obtain ⟨t, r⟩ := x
  subst h
  rfl

/-- What comes after an error is not computed. -/
theorem bind_of_error {x : Traced α} {e : EvalError} (h : x.result = .error e)
    (f : α → Traced β) : x >>= f = ⟨x.trace, .error e⟩ := by
  obtain ⟨t, r⟩ := x
  subst h
  rfl

theorem result_bind (x : Traced α) (f : α → Traced β) :
    (x >>= f).result = x.result >>= fun a => (f a).result := by
  obtain ⟨t, r⟩ := x
  cases r <;> rfl

/-- Two computations succeed exactly if the first one does, and the second one with its value. -/
theorem result_bind_eq_ok_iff {x : Traced α} {f : α → Traced β} {b : β} :
    (x >>= f).result = .ok b ↔ ∃ a, x.result = .ok a ∧ (f a).result = .ok b := by
  rw [result_bind, bind_eq_ok_iff]

theorem map_id (x : Traced α) : id <$> x = x := by
  obtain ⟨t, r⟩ := x
  cases r with
  | error e => rfl
  | ok a => exact Traced.ext (List.append_nil t) rfl

theorem bind_assoc {γ : Type} (x : Traced α) (f : α → Traced β) (g : β → Traced γ) :
    (x.bind f).bind g = x.bind fun a => (f a).bind g := by
  obtain ⟨t, r⟩ := x
  cases r with
  | error e => rfl
  | ok a =>
    simp only [bind]
    cases (f a).result with
    | error e => rfl
    | ok b => simp only [List.append_assoc]

theorem trace_map (f : α → β) (x : Traced α) : (f <$> x).trace = x.trace := by
  obtain ⟨t, r⟩ := x
  cases r with
  | error e => rfl
  | ok a => exact List.append_nil t

theorem result_map (f : α → β) (x : Traced α) : (f <$> x).result = f <$> x.result := by
  obtain ⟨t, r⟩ := x
  cases r <;> rfl

instance : LawfulMonad Traced :=
  LawfulMonad.mk' Traced map_id (fun _ _ => rfl) bind_assoc

end Traced

end InfixArithmetic
