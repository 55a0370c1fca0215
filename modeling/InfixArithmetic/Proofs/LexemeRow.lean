/-
  Scanning finds exactly the rows of lexemes.

  A row is any list of lexemes of the language in which no two numbers are neighbours. Its
  characters are scanned back to the row, and whatever a scan finds is a row that writes the text
  (`scanFrom_eq_ok_iff`, `scan_eq_ok_iff`). So a text has at most one row. The one thing to see is
  where a number ends: the longest one is taken, and what is left does not go on with a digit or a
  point (`number?_of_isLiteral`, `isLiteral_of_number?`).
-/
import InfixArithmetic.EvalError
import InfixArithmetic.Lexeme.Row

namespace InfixArithmetic

namespace Lexeme

/-- Whether a list of lexemes can stand in a text: all are of the language, and no two numbers are
neighbours. -/
structure IsRow (ls : List Lexeme) : Prop where
  isValid : ∀ l ∈ ls, IsValid l
  separated : Separated ls

/-- Whether a text does not go on a number. -/
def EndsNumber (rest : List Char) : Prop := ∀ c ∈ rest.head?, isNumberChar c = false

/-! ## Classes of characters -/

theorem isNumberChar_of_isDigit {c : Char} (h : c.isDigit = true) : isNumberChar c = true := by
  rw [isNumberChar, h, Bool.true_or]

theorem isNumberChar_eq_false_iff {c : Char} :
    isNumberChar c = false ↔ c.isDigit = false ∧ c ≠ '.' := by
  simp [isNumberChar]

theorem isOperatorSymbol_iff {c : Char} :
    isOperatorSymbol c = true ↔ c = '+' ∨ c = '-' ∨ c = '*' ∨ c = '/' := by
  simp [isOperatorSymbol]

theorem isNumberChar_eq_false_of_isOperatorSymbol {c : Char} (h : isOperatorSymbol c = true) :
    isNumberChar c = false := by
  rcases isOperatorSymbol_iff.mp h with rfl | rfl | rfl | rfl <;> rfl

theorem isNumberChar_of_mem_literal {literal : List Char} (h : IsLiteral literal) :
    ∀ c ∈ literal, isNumberChar c = true := by
  obtain ⟨whole, fraction, hd, -, ⟨rfl, rfl⟩ | rfl⟩ := h
  · intro c hc
    exact isNumberChar_of_isDigit (hd c (List.mem_append_left _ hc))
  · intro c hc
    rcases List.mem_append.mp hc with hc | hc
    · exact isNumberChar_of_isDigit (hd c (List.mem_append_left _ hc))
    · rcases List.mem_cons.mp hc with rfl | hc
      · rfl
      · exact isNumberChar_of_isDigit (hd c (List.mem_append_right _ hc))

theorem ne_nil_of_isLiteral {literal : List Char} (h : IsLiteral literal) : literal ≠ [] := by
  obtain ⟨whole, fraction, -, hne, ⟨rfl, rfl⟩ | rfl⟩ := h
  · simpa using hne
  · exact List.append_ne_nil_of_right_ne_nil _ (List.cons_ne_nil _ _)

theorem isLiteral_of_all_isDigit {literal : List Char} (hd : literal.all Char.isDigit = true)
    (hne : literal ≠ []) : IsLiteral literal := by
  refine ⟨literal, [], ?_, ?_, Or.inl ⟨rfl, rfl⟩⟩
  · rw [List.append_nil]
    exact List.all_eq_true.mp hd
  · rwa [List.append_nil]

/-! ## One number -/

section

variable {p : Char → Bool} {front rest : List Char}

theorem takeWhile_class (hfront : ∀ c ∈ front, p c) (hrest : ∀ c ∈ rest.head?, p c = false) :
    (front ++ rest).takeWhile p = front := by
  rw [List.takeWhile_append_of_pos hfront]
  cases rest with
  | nil => exact List.append_nil front
  | cons c rest =>
    have hc : ¬p c = true := by rw [hrest c rfl]; exact Bool.false_ne_true
    rw [List.takeWhile_cons_of_neg hc, List.append_nil]

theorem dropWhile_class (hfront : ∀ c ∈ front, p c) (hrest : ∀ c ∈ rest.head?, p c = false) :
    (front ++ rest).dropWhile p = rest := by
  rw [List.dropWhile_append_of_pos hfront]
  cases rest with
  | nil => rfl
  | cons c rest =>
    have hc : ¬p c = true := by rw [hrest c rfl]; exact Bool.false_ne_true
    rw [List.dropWhile_cons_of_neg hc]

end

theorem head?_dropWhile_class (p : Char → Bool) (cs : List Char) :
    ∀ c ∈ (cs.dropWhile p).head?, p c = false := by
  intro c hc
  have h := List.head?_dropWhile_not p cs
  rw [hc] at h
  exact h

theorem splitFraction_of_ne {cs : List Char} (h : cs.head? ≠ some '.') :
    splitFraction cs = ([], cs) := by
  unfold splitFraction
  split
  · exact absurd rfl h
  · rfl

/-- A literal is read whole if the text after it does not go on a number. -/
theorem number?_of_isLiteral {literal rest : List Char} (h : IsLiteral literal)
    (hrest : EndsNumber rest) : number? (literal ++ rest) = some (number literal, rest) := by
  have hdigit : ∀ c ∈ rest.head?, c.isDigit = false :=
    fun c hc => (isNumberChar_eq_false_iff.mp (hrest c hc)).1
  have hpoint : rest.head? ≠ some '.' :=
    fun hc => (isNumberChar_eq_false_iff.mp (hrest '.' hc)).2 rfl
  obtain ⟨whole, fraction, hd, hne, ⟨rfl, rfl⟩ | rfl⟩ := h
  · have hwhole : ∀ c ∈ literal, c.isDigit := by simpa using hd
    have hany : literal.any Char.isDigit = true := by
      obtain ⟨c, cs, rfl⟩ := List.exists_cons_of_ne_nil (by simpa using hne)
      rw [List.any_cons, hwhole c List.mem_cons_self, Bool.true_or]
    simp only [number?, takeWhile_class hwhole hdigit, dropWhile_class hwhole hdigit,
      splitFraction_of_ne hpoint, List.append_nil]
    rw [if_pos ⟨hany, hpoint⟩]
  · have hwhole : ∀ c ∈ whole, c.isDigit := fun c hc => hd c (List.mem_append_left _ hc)
    have hfraction : ∀ c ∈ fraction, c.isDigit := fun c hc => hd c (List.mem_append_right _ hc)
    have hstop : ∀ c ∈ ('.' :: (fraction ++ rest)).head?, c.isDigit = false := by
      intro c hc
      obtain rfl : '.' = c := by simpa using hc
      rfl
    have hany : (whole ++ '.' :: fraction).any Char.isDigit = true := by
      obtain ⟨c, hc⟩ := List.exists_mem_of_ne_nil _ hne
      have hsublist := (List.sublist_cons_self '.' fraction).append_left whole
      exact List.any_eq_true.mpr ⟨c, hsublist.mem hc, hd c hc⟩
    simp only [number?, List.append_assoc, List.cons_append, takeWhile_class hwhole hstop,
      dropWhile_class hwhole hstop, splitFraction, takeWhile_class hfraction hdigit,
      dropWhile_class hfraction hdigit]
    rw [if_pos ⟨hany, hpoint⟩]

theorem isDigit_of_mem_takeWhile {cs : List Char} :
    ∀ c ∈ cs.takeWhile Char.isDigit, c.isDigit :=
  List.all_eq_true.mp List.all_takeWhile

/-- What is read as a number is a literal, and the text after it does not go on a number. -/
theorem isLiteral_of_number? {cs rest : List Char} {l : Lexeme}
    (h : number? cs = some (l, rest)) :
    ∃ literal, l = number literal ∧ IsLiteral literal ∧ EndsNumber rest := by
  simp only [number?, Option.ite_none_right_eq_some, Option.some.injEq, Prod.mk.injEq] at h
  obtain ⟨⟨hany, hpoint⟩, rfl, rfl⟩ := h
  have hends : ∀ after : List Char, (∀ c ∈ after.head?, c.isDigit = false) →
      after.head? ≠ some '.' → EndsNumber after := by
    intro after hdigit hne c hc
    refine isNumberChar_eq_false_iff.mpr ⟨hdigit c hc, ?_⟩
    rintro rfl
    exact hne hc
  refine ⟨_, rfl, ?_⟩
  by_cases hdot : (cs.dropWhile Char.isDigit).head? = some '.'
  · obtain ⟨after, hafter⟩ : ∃ after, cs.dropWhile Char.isDigit = '.' :: after := by
      cases hcs : cs.dropWhile Char.isDigit with
      | nil => simp [hcs] at hdot
      | cons c after =>
        obtain rfl : c = '.' := by simpa [hcs] using hdot
        exact ⟨after, rfl⟩
    rw [hafter] at hany hpoint ⊢
    simp only [splitFraction] at hany hpoint ⊢
    refine ⟨⟨cs.takeWhile Char.isDigit, after.takeWhile Char.isDigit, ?_, ?_, Or.inr rfl⟩,
      hends _ (head?_dropWhile_class _ after) hpoint⟩
    · intro c hc
      rcases List.mem_append.mp hc with hc | hc
      · exact isDigit_of_mem_takeWhile c hc
      · exact isDigit_of_mem_takeWhile c hc
    · intro hnil
      obtain ⟨hw, hf⟩ := List.append_eq_nil_iff.mp hnil
      rw [hw, hf] at hany
      exact absurd hany (by decide)
  · rw [splitFraction_of_ne hdot] at hany hpoint ⊢
    refine ⟨⟨cs.takeWhile Char.isDigit, [], ?_, ?_, Or.inl ⟨?_, rfl⟩⟩,
      hends _ (head?_dropWhile_class _ cs) hdot⟩
    · rw [List.append_nil]
      exact isDigit_of_mem_takeWhile
    · intro hnil
      rw [List.append_nil] at hnil hany
      rw [hnil] at hany
      exact absurd hany (by decide)
    · rw [List.append_nil]

/-! ## One lexeme -/

theorem next?_of_isNumberChar {c : Char} (h : isNumberChar c = true) (cs : List Char) :
    next? (c :: cs) = number? (c :: cs) := by
  have hop : ¬isOperatorSymbol c = true := by
    intro hop
    rw [isNumberChar_eq_false_of_isOperatorSymbol hop] at h
    exact Bool.false_ne_true h
  unfold next?
  split
  · rename_i heq
    cases heq
  · rename_i heq
    cases heq
    cases h
  · rename_i heq
    cases heq
    cases h
  · rename_i heq
    cases heq
    exact if_neg hop

/-- A valid lexeme is read back if it is no number, or the text after it does not go on one. -/
theorem next?_text_append {l : Lexeme} {rest : List Char} (h : IsValid l)
    (hrest : l.isNumber = true → EndsNumber rest) : next? (l.text ++ rest) = some (l, rest) := by
  cases l with
  | openParen => rfl
  | closeParen => rfl
  | operator symbol =>
    rcases isOperatorSymbol_iff.mp h with rfl | rfl | rfl | rfl <;> rfl
  | number literal =>
    have hliteral : IsLiteral literal := h
    obtain ⟨c, cs, rfl⟩ := List.exists_cons_of_ne_nil (ne_nil_of_isLiteral hliteral)
    have hc : isNumberChar c = true := isNumberChar_of_mem_literal hliteral c List.mem_cons_self
    rw [text, List.cons_append, next?_of_isNumberChar hc]
    exact number?_of_isLiteral hliteral (hrest rfl)

/-- What is read is a valid lexeme, and if it is a number, the text after it does not go on
one. -/
theorem isValid_of_next? {cs rest : List Char} {l : Lexeme} (h : next? cs = some (l, rest)) :
    IsValid l ∧ (l.isNumber = true → EndsNumber rest) := by
  unfold next? at h
  split at h
  · cases h
  · cases h
    exact ⟨trivial, fun hn => nomatch hn⟩
  · cases h
    exact ⟨trivial, fun hn => nomatch hn⟩
  · split at h
    · rename_i hop
      cases h
      exact ⟨hop, fun hn => nomatch hn⟩
    · obtain ⟨literal, rfl, hliteral, hrest⟩ := isLiteral_of_number? h
      exact ⟨hliteral, fun _ => hrest⟩

/-! ## Rows -/

theorem textOf_cons (l : Lexeme) (ls : List Lexeme) : textOf (l :: ls) = l.text ++ textOf ls :=
  List.flatMap_cons

theorem text_ne_nil {l : Lexeme} (h : IsValid l) : l.text ≠ [] := by
  cases l with
  | number literal => exact ne_nil_of_isLiteral h
  | _ => exact List.cons_ne_nil _ _

theorem separated_cons {l : Lexeme} {ls : List Lexeme} :
    Separated (l :: ls) ↔
      (l.isNumber = true → ∀ l' ∈ ls.head?, l'.isNumber = false) ∧ Separated ls := by
  cases ls with
  | nil => simp [Separated]
  | cons l' ls => simp [Separated]

theorem isRow_nil : IsRow [] := ⟨fun _ h => (nomatch h), trivial⟩

theorem IsRow.cons {l : Lexeme} {ls : List Lexeme} (h : IsRow ls) (hl : IsValid l)
    (hseparated : l.isNumber = true → ∀ l' ∈ ls.head?, l'.isNumber = false) : IsRow (l :: ls) :=
  ⟨List.forall_mem_cons.mpr ⟨hl, h.isValid⟩, separated_cons.mpr ⟨hseparated, h.separated⟩⟩

theorem IsRow.tail {l : Lexeme} {ls : List Lexeme} (h : IsRow (l :: ls)) : IsRow ls :=
  ⟨fun l' hl' => h.isValid l' (List.mem_cons_of_mem l hl'), (separated_cons.mp h.separated).2⟩

theorem IsRow.head_isValid {l : Lexeme} {ls : List Lexeme} (h : IsRow (l :: ls)) : IsValid l :=
  h.isValid l List.mem_cons_self

/-- The first character of a row, by its first lexeme: one of a number, or none of a number. -/
theorem isNumberChar_head {l : Lexeme} (h : IsValid l) (rest : List Char) :
    ∀ c ∈ (l.text ++ rest).head?, isNumberChar c = l.isNumber := by
  intro c hc
  cases l with
  | openParen =>
    obtain rfl : '(' = c := by simpa [text] using hc
    rfl
  | closeParen =>
    obtain rfl : ')' = c := by simpa [text] using hc
    rfl
  | operator symbol =>
    obtain rfl : symbol = c := by simpa [text] using hc
    exact isNumberChar_eq_false_of_isOperatorSymbol h
  | number literal =>
    obtain ⟨c', cs, rfl⟩ := List.exists_cons_of_ne_nil (ne_nil_of_isLiteral h)
    obtain rfl : c' = c := by simpa [text] using hc
    exact isNumberChar_of_mem_literal h c' List.mem_cons_self

/-- The text of a row goes on a number exactly if its first lexeme is one. -/
theorem endsNumber_textOf {ls : List Lexeme} (h : IsRow ls) :
    EndsNumber (textOf ls) ↔ ∀ l ∈ ls.head?, l.isNumber = false := by
  cases ls with
  | nil => exact ⟨fun _ _ hl => (nomatch hl), fun _ _ hc => (nomatch hc)⟩
  | cons l ls =>
    rw [textOf_cons]
    have hhead := isNumberChar_head h.head_isValid (textOf ls)
    constructor
    · intro hends l' hl'
      obtain rfl : l = l' := by simpa using hl'
      obtain ⟨c, cs, htext⟩ := List.exists_cons_of_ne_nil (text_ne_nil h.head_isValid)
      rw [htext, List.cons_append] at hhead hends
      rw [← hhead c rfl]
      exact hends c rfl
    · intro hl c hc
      rw [hhead c hc]
      exact hl l rfl

theorem IsRow.endsNumber_textOf_tail {l : Lexeme} {ls : List Lexeme} (h : IsRow (l :: ls)) :
    l.isNumber = true → EndsNumber (textOf ls) := fun hl =>
  (endsNumber_textOf h.tail).mpr ((separated_cons.mp h.separated).1 hl)

/-- A row is read back, and what is read is a row. -/
theorem scanFrom_eq_ok_iff {position : Nat} {cs : List Char} {ls : List Lexeme} :
    scanFrom position cs = .ok ls ↔ IsRow ls ∧ textOf ls = cs := by
  constructor
  · intro h
    induction position, cs using scanFrom.induct generalizing ls with
    | case1 position =>
      rw [scanFrom_nil] at h
      cases h
      exact ⟨isRow_nil, rfl⟩
    | case2 position c cs hnone =>
      rw [scanFrom_eq_error (List.cons_ne_nil c cs) hnone] at h
      cases h
    | case3 position c cs l rest hnext ih =>
      rw [scanFrom_eq_bind hnext] at h
      obtain ⟨ls', hls', hls⟩ := bind_eq_ok_iff.mp h
      cases hls
      obtain ⟨hrow, htext⟩ := ih hls'
      obtain ⟨hvalid, hends⟩ := isValid_of_next? hnext
      refine ⟨hrow.cons hvalid fun hl => ?_, ?_⟩
      · exact (endsNumber_textOf hrow).mp (htext ▸ hends hl)
      · rw [textOf_cons, htext]
        exact text_append_of_next? hnext
  · intro hexists
    obtain ⟨hrow, rfl⟩ := hexists
    induction ls generalizing position with
    | nil => exact scanFrom_nil position
    | cons l ls ih =>
      have hnext := next?_text_append hrow.head_isValid hrow.endsNumber_textOf_tail
      rw [textOf_cons, scanFrom_eq_bind hnext, ih hrow.tail]
      rfl

/-- A scan that fails behind its first lexeme fails on what follows. -/
theorem scanFrom_eq_error_of_next? {position failure : Nat} {cs rest : List Char} {l : Lexeme}
    (hnext : next? cs = some (l, rest)) (h : scanFrom position cs = .error failure) :
    scanFrom (position + l.text.length) rest = .error failure := by
  rw [scanFrom_eq_bind hnext] at h
  rcases bind_eq_error_iff.mp h with h | ⟨ls, -, hls⟩
  · exact h
  · cases hls

/-- A text has at most one row. -/
theorem IsRow.eq_of_textOf_eq {ls ls' : List Lexeme} (h : IsRow ls) (h' : IsRow ls')
    (htext : textOf ls = textOf ls') : ls = ls' := by
  have hscan : scanFrom 0 (textOf ls) = .ok ls := scanFrom_eq_ok_iff.mpr ⟨h, rfl⟩
  have hscan' : scanFrom 0 (textOf ls) = .ok ls' := scanFrom_eq_ok_iff.mpr ⟨h', htext.symm⟩
  rw [hscan] at hscan'
  exact Except.ok.inj hscan'

theorem scan_eq_ok_iff {cs : List Char} {ls : List Lexeme} :
    scan cs = .ok ls ↔ IsRow ls ∧ ls ≠ [] ∧ textOf ls = cs := by
  unfold scan
  split
  · rename_i hnil
    subst hnil
    constructor
    · intro h
      cases h
    · intro ⟨hrow, hne, htext⟩
      obtain ⟨l, ls, rfl⟩ := List.exists_cons_of_ne_nil hne
      rw [textOf_cons] at htext
      exact absurd (List.append_eq_nil_iff.mp htext).1 (text_ne_nil hrow.head_isValid)
  · rename_i hne
    rw [scanFrom_eq_ok_iff]
    constructor
    · intro hexists
      obtain ⟨hrow, rfl⟩ := hexists
      refine ⟨hrow, ?_, rfl⟩
      rintro rfl
      exact hne rfl
    · intro ⟨hrow, _, htext⟩
      exact ⟨hrow, htext⟩

end Lexeme

end InfixArithmetic
