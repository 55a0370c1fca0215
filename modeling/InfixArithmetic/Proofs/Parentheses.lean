/-
  Balance of parentheses, in texts and in token lists.

  A list closes within a depth if no beginning of it closes more than it opens, the depth being what
  was opened before. One entry at a time, an opening one adds to the depth and a closing one takes
  from it (`closes_cons_of_open`, `closes_cons_of_close`), so the tokens of a text are balanced
  exactly if its characters are (`closes_textOf_iff`).
-/
import InfixArithmetic.Proofs.Reading

namespace InfixArithmetic

section

variable {β : Type} {isOpen isClose : β → Bool}

/-- Whether no beginning of a list closes more than it opens beyond a depth. -/
def ClosesWithin (isOpen isClose : β → Bool) (depth : Nat) (l : List β) : Prop :=
  ∀ front, front <+: l → front.countP isClose ≤ depth + front.countP isOpen

/-- Whether every entry that closes has one that opens before it, and the other way round. -/
structure IsBalanced (isOpen isClose : β → Bool) (l : List β) : Prop where
  closesWithin : ClosesWithin isOpen isClose 0 l
  closesAll : l.countP isOpen = l.countP isClose

theorem closesWithin_nil (depth : Nat) : ClosesWithin isOpen isClose depth [] := by
  intro front hfront
  rw [List.prefix_nil.mp hfront, List.countP_nil]
  exact Nat.zero_le _

theorem closesWithin_concat_iff {depth : Nat} {l : List β} {b : β} :
    ClosesWithin isOpen isClose depth (l ++ [b]) ↔
      ClosesWithin isOpen isClose depth l ∧
        (l ++ [b]).countP isClose ≤ depth + (l ++ [b]).countP isOpen := by
  constructor
  · intro h
    exact ⟨fun front hfront => h front (hfront.trans (List.prefix_append l [b])),
      h _ (List.prefix_refl _)⟩
  · intro ⟨h, hall⟩ front hfront
    rcases List.prefix_concat_iff.mp hfront with rfl | hfront
    · exact hall
    · exact h front hfront

theorem closesWithin_cons_of_neither {b : β} (ho : isOpen b = false) (hc : isClose b = false)
    {depth : Nat} {l : List β} :
    ClosesWithin isOpen isClose depth (b :: l) ↔ ClosesWithin isOpen isClose depth l := by
  constructor
  · intro h front hfront
    have := h (b :: front) (List.prefix_cons_inj b |>.mpr hfront)
    simpa [ho, hc] using this
  · intro h front hfront
    rcases List.prefix_cons_iff.mp hfront with rfl | ⟨rest, rfl, hrest⟩
    · exact Nat.zero_le _
    · simpa [ho, hc] using h rest hrest

theorem closesWithin_cons_of_open {b : β} (ho : isOpen b = true) (hc : isClose b = false)
    {depth : Nat} {l : List β} :
    ClosesWithin isOpen isClose depth (b :: l) ↔ ClosesWithin isOpen isClose (depth + 1) l := by
  constructor
  · intro h front hfront
    have := h (b :: front) (List.prefix_cons_inj b |>.mpr hfront)
    simp [ho, hc] at this
    omega
  · intro h front hfront
    rcases List.prefix_cons_iff.mp hfront with rfl | ⟨rest, rfl, hrest⟩
    · exact Nat.zero_le _
    · have := h rest hrest
      simp [ho, hc]
      omega

/-- A closing entry needs an open one. -/
theorem closesWithin_cons_of_close {b : β} (ho : isOpen b = false) (hc : isClose b = true)
    {depth : Nat} {l : List β} :
    ClosesWithin isOpen isClose depth (b :: l) ↔
      ∃ outer, depth = outer + 1 ∧ ClosesWithin isOpen isClose outer l := by
  constructor
  · intro h
    have hfirst := h [b] (List.prefix_cons_inj b |>.mpr (List.nil_prefix))
    simp [ho, hc] at hfirst
    refine ⟨depth - 1, by omega, fun front hfront => ?_⟩
    have := h (b :: front) (List.prefix_cons_inj b |>.mpr hfront)
    simp [ho, hc] at this
    omega
  · intro hexists front hfront
    obtain ⟨outer, rfl, h⟩ := hexists
    rcases List.prefix_cons_iff.mp hfront with rfl | ⟨rest, rfl, hrest⟩
    · exact Nat.zero_le _
    · have := h rest hrest
      simp [ho, hc]
      omega

/-- Whether a list closes everything that it opens and `depth` entries that were opened before. -/
structure Closes (isOpen isClose : β → Bool) (depth : Nat) (l : List β) : Prop where
  closesWithin : ClosesWithin isOpen isClose depth l
  closesAll : depth + l.countP isOpen = l.countP isClose

theorem isBalanced_iff {l : List β} : IsBalanced isOpen isClose l ↔ Closes isOpen isClose 0 l := by
  constructor
  · intro h
    exact ⟨h.closesWithin, (Nat.zero_add _).trans h.closesAll⟩
  · intro h
    exact ⟨h.closesWithin, (Nat.zero_add _).symm.trans h.closesAll⟩

theorem closes_nil_iff {depth : Nat} : Closes isOpen isClose depth [] ↔ depth = 0 := by
  constructor
  · intro h
    exact h.closesAll
  · rintro rfl
    exact ⟨closesWithin_nil 0, rfl⟩

theorem closes_cons_of_neither {b : β} (ho : isOpen b = false) (hc : isClose b = false)
    {depth : Nat} {l : List β} :
    Closes isOpen isClose depth (b :: l) ↔ Closes isOpen isClose depth l := by
  have hopens : (b :: l).countP isOpen = l.countP isOpen :=
    List.countP_cons_of_neg (by rw [ho]; exact Bool.false_ne_true)
  have hcloses : (b :: l).countP isClose = l.countP isClose :=
    List.countP_cons_of_neg (by rw [hc]; exact Bool.false_ne_true)
  constructor
  · intro ⟨hwithin, hall⟩
    refine ⟨(closesWithin_cons_of_neither ho hc).mp hwithin, ?_⟩
    omega
  · intro ⟨hwithin, hall⟩
    refine ⟨(closesWithin_cons_of_neither ho hc).mpr hwithin, ?_⟩
    omega

theorem closes_cons_of_open {b : β} (ho : isOpen b = true) (hc : isClose b = false)
    {depth : Nat} {l : List β} :
    Closes isOpen isClose depth (b :: l) ↔ Closes isOpen isClose (depth + 1) l := by
  have hopens : (b :: l).countP isOpen = l.countP isOpen + 1 := List.countP_cons_of_pos ho
  have hcloses : (b :: l).countP isClose = l.countP isClose :=
    List.countP_cons_of_neg (by rw [hc]; exact Bool.false_ne_true)
  constructor
  · intro ⟨hwithin, hall⟩
    refine ⟨(closesWithin_cons_of_open ho hc).mp hwithin, ?_⟩
    omega
  · intro ⟨hwithin, hall⟩
    refine ⟨(closesWithin_cons_of_open ho hc).mpr hwithin, ?_⟩
    omega

theorem closes_cons_of_close {b : β} (ho : isOpen b = false) (hc : isClose b = true)
    {depth : Nat} {l : List β} :
    Closes isOpen isClose depth (b :: l) ↔
      ∃ outer, depth = outer + 1 ∧ Closes isOpen isClose outer l := by
  have hopens : (b :: l).countP isOpen = l.countP isOpen :=
    List.countP_cons_of_neg (by rw [ho]; exact Bool.false_ne_true)
  have hcloses : (b :: l).countP isClose = l.countP isClose + 1 := List.countP_cons_of_pos hc
  constructor
  · intro ⟨hwithin, hall⟩
    obtain ⟨outer, rfl, houter⟩ := (closesWithin_cons_of_close ho hc).mp hwithin
    refine ⟨outer, rfl, houter, ?_⟩
    omega
  · intro hexists
    obtain ⟨outer, rfl, houter, hall⟩ := hexists
    refine ⟨(closesWithin_cons_of_close ho hc).mpr ⟨outer, rfl, houter⟩, ?_⟩
    omega

theorem closes_append_of_neither {front : List β}
    (h : ∀ b ∈ front, isOpen b = false ∧ isClose b = false) {depth : Nat} {l : List β} :
    Closes isOpen isClose depth (front ++ l) ↔ Closes isOpen isClose depth l := by
  induction front with
  | nil => exact Iff.rfl
  | cons b front ih =>
    obtain ⟨⟨ho, hc⟩, hfront⟩ := List.forall_mem_cons.mp h
    rw [List.cons_append, closes_cons_of_neither ho hc, ih hfront]

end

/-! ## Texts and their tokens -/

namespace Token

variable {α : Type}

def isOpen : Token α → Bool
  | openParen => true
  | _ => false

def isClose : Token α → Bool
  | closeParen => true
  | _ => false

end Token

/-- Whether the parentheses of a text are balanced. -/
def HasBalancedParentheses (text : List Char) : Prop := IsBalanced (· == '(') (· == ')') text

theorem ne_paren_of_isNumberChar {c : Char} (h : Lexeme.isNumberChar c = true) :
    (c == '(') = false ∧ (c == ')') = false := by
  constructor
  · refine beq_eq_false_iff_ne.mpr ?_
    rintro rfl
    cases h
  · refine beq_eq_false_iff_ne.mpr ?_
    rintro rfl
    cases h

theorem ne_paren_of_isOperatorSymbol {c : Char} (h : Lexeme.isOperatorSymbol c = true) :
    (c == '(') = false ∧ (c == ')') = false := by
  rcases Lexeme.isOperatorSymbol_iff.mp h with rfl | rfl | rfl | rfl <;> exact ⟨rfl, rfl⟩

/-- Characters and tokens of a row close alike, whatever was opened before. -/
theorem closes_textOf_iff {α : Type} [Arithmetic α] {unaryMinus operandDue : Bool}
    {ls : List Lexeme} {tokens : List (Token α)} (hvalid : ∀ l ∈ ls, l.IsValid)
    (h : Token.ofLexemes unaryMinus operandDue ls = .ok tokens) {depth : Nat} :
    Closes (· == '(') (· == ')') depth (Lexeme.textOf ls) ↔
      Closes Token.isOpen Token.isClose depth tokens := by
  induction ls generalizing operandDue tokens depth with
  | nil =>
    cases h
    exact closes_nil_iff.trans closes_nil_iff.symm
  | cons l ls ih =>
    obtain ⟨token, rest, htoken, hrest, rfl⟩ := Token.ofLexemes_cons_eq_ok_iff.mp h
    obtain ⟨hl, hls⟩ := List.forall_mem_cons.mp hvalid
    rw [Lexeme.textOf_cons]
    cases l with
    | openParen =>
      cases htoken
      exact (closes_cons_of_open rfl rfl).trans
        ((ih hls hrest).trans (closes_cons_of_open rfl rfl).symm)
    | closeParen =>
      cases htoken
      refine (closes_cons_of_close rfl rfl).trans
        (Iff.trans ?_ (closes_cons_of_close rfl rfl).symm)
      exact exists_congr fun outer => and_congr_right fun _ => ih hls hrest
    | number literal =>
      obtain ⟨value, rfl⟩ := Token.exists_of_ofLexeme_number htoken
      have hneither : ∀ c ∈ literal, (c == '(') = false ∧ (c == ')') = false := fun c hc =>
        ne_paren_of_isNumberChar (Lexeme.isNumberChar_of_mem_literal hl c hc)
      exact (closes_append_of_neither hneither).trans
        ((ih hls hrest).trans (closes_cons_of_neither rfl rfl).symm)
    | operator symbol =>
      obtain ⟨op, rfl, -, -⟩ := Token.exists_of_ofLexeme_operator htoken
      have hneither : ∀ c ∈ [symbol], (c == '(') = false ∧ (c == ')') = false :=
        List.forall_mem_singleton.mpr (ne_paren_of_isOperatorSymbol hl)
      exact (closes_append_of_neither hneither).trans
        ((ih hls hrest).trans (closes_cons_of_neither rfl rfl).symm)

end InfixArithmetic
