/-
  A conversion to postfix order loses nothing and adds nothing.

  It queues every number, holds every operator either in the queue or on the pending stack, and has
  one pending parenthesis for each that is not closed (`Conversion.Accounts`, kept by each token). It
  goes astray exactly when some beginning of the tokens closes more than it opens
  (`stray_ofTokens`), and leaves something pending exactly if not everything is closed
  (`pending_ofTokens_eq_nil_iff`).
-/
import InfixArithmetic.Proofs.Parentheses
import InfixArithmetic.Reduction.Postfix
import Mathlib.Data.List.Induction

namespace InfixArithmetic

theorem countP_cons_eq {β : Type} (p : β → Bool) (b : β) (l : List β) :
    (b :: l).countP p = l.countP p + (p b).toNat := by
  rw [List.countP_cons]
  cases p b <;> rfl

/-! ## Kinds of entries -/

/-- Whether an operator takes two operands. -/
def Operator.isBinary (op : Operator) : Bool := !op.isUnary

namespace Token

variable {α : Type}

def isNumber : Token α → Bool
  | number _ => true
  | _ => false

/-- Whether a token is an operator with a property. -/
def isOperator (p : Operator → Bool) : Token α → Bool
  | operator op => p op
  | _ => false

end Token

namespace PostfixItem

variable {α : Type}

def isNumber : PostfixItem α → Bool
  | number _ => true
  | _ => false

/-- Whether an item is an operator with a property. -/
def isOperator (p : Operator → Bool) : PostfixItem α → Bool
  | operator op => p op
  | _ => false

theorem countP_isNumber_map_operator (ops : List Operator) :
    (ops.map (operator : Operator → PostfixItem α)).countP isNumber = 0 := by
  rw [List.countP_map]
  exact List.countP_eq_zero.mpr fun _ _ => Bool.false_ne_true

theorem countP_isOperator_map_operator (p : Operator → Bool) (ops : List Operator) :
    (ops.map (operator : Operator → PostfixItem α)).countP (isOperator p) = ops.countP p :=
  List.countP_map

end PostfixItem

namespace Pending

/-- Whether an entry is an operator with a property. -/
def isOperator (p : Operator → Bool) : Pending → Bool
  | operator op => p op
  | openParen => false

def isOpen : Pending → Bool
  | operator _ => false
  | openParen => true

theorem countP_isOperator_map_operator (p : Operator → Bool) (ops : List Operator) :
    (ops.map operator).countP (isOperator p) = ops.countP p :=
  List.countP_map

theorem countP_isOpen_map_operator (ops : List Operator) :
    (ops.map operator).countP isOpen = 0 := by
  rw [List.countP_map]
  exact List.countP_eq_zero.mpr fun _ _ => Bool.false_ne_true

/-- What is released stood on top of what stays. -/
theorem release_append (leaves : Operator → Bool) (pending : List Pending) :
    (release leaves pending).1.map operator ++ (release leaves pending).2 = pending := by
  induction pending with
  | nil => rfl
  | cons entry pending ih =>
    cases entry with
    | openParen => rfl
    | operator op =>
      cases h : leaves op with
      | false => simp only [release, h, Bool.false_eq_true, if_false, List.map_nil, List.nil_append]
      | true =>
        simp only [release, h, if_true, List.map_cons, List.cons_append]
        rw [ih]

theorem suffix_release (leaves : Operator → Bool) (pending : List Pending) :
    (release leaves pending).2 <:+ pending :=
  ⟨_, release_append leaves pending⟩

/-- If everything may leave, what stays begins with an open parenthesis. -/
theorem release_all (pending : List Pending) :
    (release (fun _ => true) pending).2 = [] ∨
      ∃ rest, (release (fun _ => true) pending).2 = openParen :: rest := by
  induction pending with
  | nil => exact Or.inl rfl
  | cons entry pending ih =>
    cases entry with
    | openParen => exact Or.inr ⟨pending, rfl⟩
    | operator op => exact ih

theorem countP_isOpen_release (leaves : Operator → Bool) (pending : List Pending) :
    (release leaves pending).2.countP isOpen = pending.countP isOpen := by
  have h := congrArg (List.countP isOpen) (release_append leaves pending)
  rw [List.countP_append, countP_isOpen_map_operator, Nat.zero_add] at h
  exact h

theorem countP_isOperator_release (leaves : Operator → Bool) (p : Operator → Bool)
    (pending : List Pending) :
    (release leaves pending).1.countP p + (release leaves pending).2.countP (isOperator p) =
      pending.countP (isOperator p) := by
  have h := congrArg (List.countP (isOperator p)) (release_append leaves pending)
  rw [List.countP_append, countP_isOperator_map_operator] at h
  exact h

end Pending

/-! ## Conversions -/

namespace Conversion

variable {α : Type}

/-- What a conversion holds, counted against the tokens it has read. -/
structure Accounts (conversion : Conversion α) (tokens : List (Token α)) : Prop where
  numbers : conversion.queue.countP PostfixItem.isNumber = tokens.countP Token.isNumber
  operators (p : Operator → Bool) :
    conversion.queue.countP (PostfixItem.isOperator p) +
      conversion.pending.countP (Pending.isOperator p) = tokens.countP (Token.isOperator p)
  parentheses : conversion.pending.countP Pending.isOpen + tokens.countP Token.isClose =
    tokens.countP Token.isOpen

theorem accounts_nil : Accounts ({} : Conversion α) [] := ⟨rfl, fun _ => rfl, rfl⟩

theorem Accounts.release {conversion : Conversion α} {tokens : List (Token α)}
    (h : conversion.Accounts tokens) (leaves : Operator → Bool) :
    (conversion.release leaves).Accounts tokens := by
  refine ⟨?_, fun p => ?_, ?_⟩
  · show (conversion.queue ++ _).countP _ = _
    rw [List.countP_append, PostfixItem.countP_isNumber_map_operator, Nat.add_zero]
    exact h.numbers
  · show (conversion.queue ++ _).countP _ + _ = _
    rw [List.countP_append, PostfixItem.countP_isOperator_map_operator]
    have hrelease := Pending.countP_isOperator_release leaves p conversion.pending
    have hop := h.operators p
    simp only [Conversion.release]
    omega
  · have hrelease := Pending.countP_isOpen_release leaves conversion.pending
    have hpar := h.parentheses
    simp only [Conversion.release]
    omega

theorem Accounts.push_operator {conversion : Conversion α} {tokens : List (Token α)}
    (h : conversion.Accounts tokens) (op : Operator) :
    Accounts { conversion with pending := .operator op :: conversion.pending }
      (tokens ++ [.operator op]) := by
  refine ⟨?_, fun p => ?_, ?_⟩
  · simpa [Token.isNumber] using h.numbers
  · have hop := h.operators p
    cases hp : p op <;> simp [Pending.isOperator, Token.isOperator, hp] <;> omega
  · have hpar := h.parentheses
    simpa [Pending.isOpen, Token.isOpen, Token.isClose] using hpar

theorem Accounts.step_closeParen {conversion : Conversion α} {tokens : List (Token α)}
    (h : conversion.Accounts tokens) {rest : List Pending}
    (hpending : conversion.pending = .openParen :: rest) :
    Accounts { conversion with pending := rest } (tokens ++ [.closeParen]) := by
  obtain ⟨hnumbers, hops, hpar⟩ := h
  rw [hpending] at hpar
  refine ⟨?_, fun p => ?_, ?_⟩
  · simpa [Token.isNumber] using hnumbers
  · have hop := hops p
    rw [hpending] at hop
    simpa [Pending.isOperator, Token.isOperator] using hop
  · rw [List.countP_cons_of_pos rfl] at hpar
    simp [Token.isOpen, Token.isClose]
    omega

/-- One token is accounted for, unless it closes what was not opened. -/
theorem Accounts.step {conversion : Conversion α} {tokens : List (Token α)}
    (h : conversion.Accounts tokens) (hs : conversion.stray = false) (token : Token α)
    (hs' : (conversion.step token).stray = false) :
    (conversion.step token).Accounts (tokens ++ [token]) := by
  cases token with
  | number value =>
    rw [step_number hs]
    refine ⟨?_, fun p => ?_, ?_⟩
    · simpa [PostfixItem.isNumber, Token.isNumber] using h.numbers
    · simpa [PostfixItem.isOperator, Token.isOperator] using h.operators p
    · simpa [Token.isOpen, Token.isClose] using h.parentheses
  | operator incoming =>
    rw [step_operator hs]
    exact (h.release _).push_operator incoming
  | openParen =>
    rw [step_openParen hs]
    refine ⟨?_, fun p => ?_, ?_⟩
    · simpa [Token.isNumber] using h.numbers
    · simpa [Pending.isOperator, Token.isOperator] using h.operators p
    · have hpar := h.parentheses
      rw [List.countP_cons_of_pos rfl]
      simp [Token.isOpen, Token.isClose]
      omega
  | closeParen =>
    rcases Pending.release_all conversion.pending with hnil | ⟨rest, hrest⟩
    · rw [step_closeParen_of_nil hs hnil] at hs'
      cases hs'
    · rw [Conversion.step_closeParen hs hrest]
      exact (h.release _).step_closeParen hrest

/-- Only a closing parenthesis can go astray, and only if every parenthesis before it is closed. -/
theorem stray_step {conversion : Conversion α} {tokens : List (Token α)}
    (h : conversion.Accounts tokens) (hs : conversion.stray = false) (token : Token α) :
    (conversion.step token).stray = false ↔
      (tokens ++ [token]).countP Token.isClose ≤ (tokens ++ [token]).countP Token.isOpen := by
  have hpar := h.parentheses
  rw [List.countP_append, List.countP_append]
  cases token with
  | number value =>
    rw [step_number hs]
    exact ⟨fun _ => by simp [Token.isOpen, Token.isClose]; omega, fun _ => hs⟩
  | operator incoming =>
    rw [step_operator hs]
    exact ⟨fun _ => by simp [Token.isOpen, Token.isClose]; omega, fun _ => hs⟩
  | openParen =>
    rw [step_openParen hs]
    exact ⟨fun _ => by simp [Token.isOpen, Token.isClose]; omega, fun _ => hs⟩
  | closeParen =>
    have hcount := Pending.countP_isOpen_release (fun _ => true) conversion.pending
    rcases Pending.release_all conversion.pending with hnil | ⟨rest, hrest⟩
    · rw [step_closeParen_of_nil hs hnil]
      rw [hnil, List.countP_nil] at hcount
      constructor
      · intro hstray
        cases hstray
      · intro hle
        simp [Token.isOpen, Token.isClose] at hle
        omega
    · rw [Conversion.step_closeParen hs hrest]
      rw [hrest, List.countP_cons] at hcount
      refine ⟨fun _ => ?_, fun _ => hs⟩
      simp [Token.isOpen, Token.isClose]
      simp [Pending.isOpen] at hcount
      omega

end Conversion

namespace Conversion

variable {α : Type}

/-- A conversion goes astray exactly if some beginning of the tokens closes more than it opens;
otherwise everything is accounted for. -/
theorem accounts_foldl (tokens : List (Token α)) :
    ((tokens.foldl step {}).stray = false ↔
        ClosesWithin Token.isOpen Token.isClose 0 tokens) ∧
      ((tokens.foldl step {}).stray = false → (tokens.foldl step {}).Accounts tokens) := by
  induction tokens using List.reverseRecOn with
  | nil =>
    exact ⟨⟨fun _ => closesWithin_nil 0, fun _ => rfl⟩, fun _ => accounts_nil⟩
  | append_singleton tokens token ih =>
    obtain ⟨hiff, haccounts⟩ := ih
    rw [List.foldl_append, List.foldl_cons, List.foldl_nil]
    cases hs : (tokens.foldl step ({} : Conversion α)).stray with
    | true =>
      rw [step_of_stray hs, hs]
      refine ⟨⟨fun h => (nomatch h), fun h => ?_⟩, fun h => (nomatch h)⟩
      rw [hs] at hiff
      exact hiff.mpr (closesWithin_concat_iff.mp h).1
    | false =>
      have hcount := stray_step (haccounts hs) hs token
      refine ⟨?_, (haccounts hs).step hs token⟩
      rw [hcount, closesWithin_concat_iff, Nat.zero_add]
      exact ⟨fun hle => ⟨hiff.mp hs, hle⟩, fun h => h.2⟩

theorem stray_ofTokens {tokens : List (Token α)} :
    (ofTokens tokens).stray = false ↔ ClosesWithin Token.isOpen Token.isClose 0 tokens := by
  rw [← (accounts_foldl tokens).1, ofTokens]
  cases hs : (tokens.foldl step ({} : Conversion α)).stray with
  | true => rw [if_pos rfl, hs]
  | false =>
    rw [if_neg Bool.false_ne_true]
    exact ⟨fun _ => rfl, fun _ => hs⟩

theorem ofTokens_of_closesWithin {tokens : List (Token α)}
    (h : ClosesWithin Token.isOpen Token.isClose 0 tokens) :
    ofTokens tokens = (tokens.foldl step {}).release fun _ => true := by
  have hs := (accounts_foldl tokens).1.mpr h
  rw [ofTokens, if_neg (by rw [hs]; exact Bool.false_ne_true)]

theorem accounts_ofTokens {tokens : List (Token α)}
    (h : ClosesWithin Token.isOpen Token.isClose 0 tokens) : (ofTokens tokens).Accounts tokens := by
  obtain ⟨hiff, haccounts⟩ := accounts_foldl tokens
  rw [ofTokens_of_closesWithin h]
  exact (haccounts (hiff.mpr h)).release _

/-- Nothing is left pending exactly if every parenthesis is closed. -/
theorem pending_ofTokens_eq_nil_iff {tokens : List (Token α)}
    (h : ClosesWithin Token.isOpen Token.isClose 0 tokens) :
    (ofTokens tokens).pending = [] ↔ tokens.countP Token.isOpen = tokens.countP Token.isClose := by
  have hpar := (accounts_ofTokens h).parentheses
  constructor
  · intro hnil
    rw [hnil, List.countP_nil] at hpar
    omega
  · intro hcount
    have hfirst := Pending.release_all (tokens.foldl step ({} : Conversion α)).pending
    rcases hfirst with hnil | ⟨rest, hrest⟩
    · rw [ofTokens_of_closesWithin h]
      exact hnil
    · have hpending : (ofTokens tokens).pending = .openParen :: rest := by
        rw [ofTokens_of_closesWithin h]
        exact hrest
      rw [hpending, List.countP_cons_of_pos rfl] at hpar
      omega

theorem pending_ofTokens_of_isBalanced {tokens : List (Token α)}
    (h : IsBalanced Token.isOpen Token.isClose tokens) : (ofTokens tokens).pending = [] :=
  (pending_ofTokens_eq_nil_iff h.closesWithin).mpr h.closesAll

/-- If everything is closed, every operator is queued in the end. -/
theorem countP_isOperator_ofTokens {tokens : List (Token α)}
    (h : IsBalanced Token.isOpen Token.isClose tokens) (p : Operator → Bool) :
    (ofTokens tokens).queue.countP (PostfixItem.isOperator p) =
      tokens.countP (Token.isOperator p) := by
  have hops := (accounts_ofTokens h.closesWithin).operators p
  rw [pending_ofTokens_of_isBalanced h] at hops
  exact hops

/-- Only parentheses leave nothing to run. -/
theorem queue_ofTokens_eq_nil_iff {tokens : List (Token α)}
    (h : IsBalanced Token.isOpen Token.isClose tokens) :
    (ofTokens tokens).queue = [] ↔
      ∀ token ∈ tokens, token.isOpen = true ∨ token.isClose = true := by
  have hnumbers := (accounts_ofTokens h.closesWithin).numbers
  have hops := countP_isOperator_ofTokens h fun _ => true
  constructor
  · intro hnil token hmem
    rw [hnil, List.countP_nil, eq_comm, List.countP_eq_zero] at hnumbers hops
    cases token with
    | number value => exact absurd rfl (hnumbers _ hmem)
    | operator op => exact absurd rfl (hops _ hmem)
    | openParen => exact Or.inl rfl
    | closeParen => exact Or.inr rfl
  · intro hall
    have hnone : ∀ token ∈ tokens, ¬token.isNumber = true ∧
        ¬token.isOperator (fun _ => true) = true := by
      intro token hmem
      have := hall token hmem
      cases token <;> simp_all [Token.isOpen, Token.isClose, Token.isNumber, Token.isOperator]
    rw [List.countP_eq_zero.mpr fun token hmem => (hnone token hmem).1,
      List.countP_eq_zero] at hnumbers
    rw [List.countP_eq_zero.mpr fun token hmem => (hnone token hmem).2,
      List.countP_eq_zero] at hops
    refine List.eq_nil_iff_forall_not_mem.mpr fun item hmem => ?_
    cases item with
    | number value => exact hnumbers _ hmem rfl
    | operator op => exact hops _ hmem rfl

end Conversion

end InfixArithmetic
