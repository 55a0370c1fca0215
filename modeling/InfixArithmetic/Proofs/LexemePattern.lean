/-
  The scan reads what the grammar of tokens reads.

  One number is read alike by the pattern and by `Lexeme.number?` (`Pattern.read_number`): the first
  character tells which alternative of the pattern reads, and the digits behind it are a prefix in
  both. One token is too (`Pattern.read_token`), whatever the order of the alternatives, for no two of
  them begin with the same character. So the grammar reads a text exactly if the scan does
  (`Pattern.read_tokens_eq_some_iff`), and a scan that fails stands where the repetition of tokens
  stops (`Pattern.readAll_token_of_scan_error`).
-/
import InfixArithmetic.Lexeme.Pattern
import InfixArithmetic.Proofs.LexemeRow

namespace InfixArithmetic

namespace Pattern

open Lexeme (number? next? splitFraction splitFraction_of_ne scanFrom scan)

/-! ## Digits -/

theorem readAll_of_none {read : List Char → Option (List Char)} {cs : List Char}
    (h : read cs = none) : readAll read cs = cs := by
  rw [readAll, h]

theorem readAll_of_some {read : List Char → Option (List Char)} {cs rest : List Char}
    (h : read cs = some rest) (hlt : rest.length < cs.length) :
    readAll read cs = readAll read rest := by
  rw [readAll, h]
  exact if_pos hlt

theorem readAll_digit (cs : List Char) : readAll digit.read cs = cs.dropWhile Char.isDigit := by
  induction cs with
  | nil => exact readAll_of_none rfl
  | cons c cs ih =>
    by_cases hc : c.isDigit
    · have hread : digit.read (c :: cs) = some cs := if_pos hc
      rw [readAll_of_some hread (by simp), List.dropWhile_cons_of_pos hc, ih]
    · rw [readAll_of_none (if_neg hc), List.dropWhile_cons_of_neg hc]

theorem read_plus_digit (cs : List Char) :
    digit.plus.read cs =
      if (cs.takeWhile Char.isDigit).any Char.isDigit then some (cs.dropWhile Char.isDigit)
      else none := by
  unfold plus
  cases cs with
  | nil => rfl
  | cons c cs => by_cases hc : c.isDigit <;> simp [read, readAll_digit, hc]

/-! ## Numbers -/

theorem read_char (d : Char) (cs : List Char) :
    (char d).read cs = if cs.head? = some d then some cs.tail else none := by
  cases cs with
  | nil => rfl
  | cons c cs => simp [read]

theorem read_notAhead_char (d : Char) (cs : List Char) :
    (char d).notAhead.read cs = if cs.head? ≠ some d then some cs else none := by
  unfold read
  rw [read_char]
  by_cases h : cs.head? = some d <;> simp [h]

theorem read_fraction (cs : List Char) :
    ((char '.').seq digit.star).optional.read cs = some (splitFraction cs).2 := by
  unfold splitFraction
  split
  · simp [read, readAll_digit]
  · have hpoint : cs.head? ≠ some '.' := by
      intro h
      cases cs with
      | nil => cases h
      | cons c cs => simp_all
    simp [read, read_char, hpoint]

theorem read_whole (cs : List Char) :
    (digit.plus.seq ((char '.').seq digit.star).optional).read cs =
      if (cs.takeWhile Char.isDigit).any Char.isDigit then
        some (splitFraction (cs.dropWhile Char.isDigit)).2
      else none := by
  show (digit.plus.read cs).bind _ = _
  rw [read_plus_digit]
  split
  · exact read_fraction _
  · rfl

/-- The alternatives of a number read what has a digit in front of the point or behind it. -/
theorem read_alternatives (cs : List Char) :
    ((digit.plus.seq ((char '.').seq digit.star).optional).choice ((char '.').seq digit.plus)).read
        cs =
      if (cs.takeWhile Char.isDigit ++ (splitFraction (cs.dropWhile Char.isDigit)).1).any
          Char.isDigit then
        some (splitFraction (cs.dropWhile Char.isDigit)).2
      else none := by
  show ((digit.plus.seq ((char '.').seq digit.star).optional).read cs).or
    (((char '.').read cs).bind digit.plus.read) = _
  rw [read_whole, List.any_append]
  by_cases hwhole : (cs.takeWhile Char.isDigit).any Char.isDigit
  · simp [hwhole]
  · -- no digit in front, so only a point can begin a number
    have hnil : cs.takeWhile Char.isDigit = [] := by
      cases cs with
      | nil => rfl
      | cons c cs => by_cases hc : c.isDigit <;> simp_all
    have hall : cs.dropWhile Char.isDigit = cs := by
      have happend := List.takeWhile_append_dropWhile (p := Char.isDigit) (l := cs)
      rwa [hnil] at happend
    rw [hnil, hall, read_char]
    by_cases hpoint : cs.head? = some '.'
    · obtain ⟨rest, rfl⟩ := List.head?_eq_some_iff.mp hpoint
      exact read_plus_digit rest
    · simp [hpoint, splitFraction_of_ne]

/-- The pattern of numbers reads what `number?` reads. -/
theorem read_number (cs : List Char) : number.read cs = (number? cs).map Prod.snd := by
  show (Pattern.read _ cs).bind (char '.').notAhead.read = _
  rw [read_alternatives]
  unfold number?
  by_cases hany : (cs.takeWhile Char.isDigit ++
      (splitFraction (cs.dropWhile Char.isDigit)).1).any Char.isDigit
  · simp only [hany, if_true, Option.bind_some, read_notAhead_char, true_and]
    split <;> rfl
  · simp only [hany, if_false, Option.bind_none, Bool.false_eq_true, false_and, Option.map_none]

/-! ## Tokens -/

/-- The pattern of tokens reads what `next?` reads: no two alternatives begin alike. -/
theorem read_token (cs : List Char) : token.read cs = (next? cs).map Prod.snd := by
  show (number.read cs).or ((operator.read cs).or (((char '(').read cs).or ((char ')').read cs))) = _
  rw [read_number]
  unfold next?
  split
  · rfl
  · rfl
  · rfl
  · rename_i c cs hopen hclose
    by_cases hop : Lexeme.isOperatorSymbol c
    · rcases Lexeme.isOperatorSymbol_iff.mp hop with rfl | rfl | rfl | rfl <;> rfl
    · simp_all [read, operator, Lexeme.isOperatorSymbol]

theorem readAll_token_of_next? {cs rest : List Char} {l : Lexeme} (h : next? cs = some (l, rest)) :
    readAll token.read cs = readAll token.read rest := by
  apply readAll_of_some _ (Lexeme.length_lt_of_next? h)
  rw [read_token, h]
  rfl

/-! ## Texts -/

/-- The repetition of tokens reads a text to its end if the scan does. -/
theorem readAll_token_of_scanFrom {position : Nat} {cs : List Char} {ls : List Lexeme}
    (h : scanFrom position cs = .ok ls) : readAll token.read cs = [] := by
  induction position, cs using Lexeme.scanFrom.induct generalizing ls with
  | case1 position => exact readAll_of_none rfl
  | case2 position c cs hnone =>
    rw [Lexeme.scanFrom_eq_error (List.cons_ne_nil c cs) hnone] at h
    cases h
  | case3 position c cs l rest hnext ih =>
    rw [Lexeme.scanFrom_eq_bind hnext] at h
    obtain ⟨ls, hls, -⟩ := bind_eq_ok_iff.mp h
    rw [readAll_token_of_next? hnext, ih hls]

/-- If the scan fails, the repetition of tokens stops there, before the end. -/
theorem readAll_token_of_scanFrom_error {position failure : Nat} {cs : List Char}
    (h : scanFrom position cs = .error failure) :
    readAll token.read cs ≠ [] ∧
      ∃ n, failure = position + n ∧ readAll token.read cs = cs.drop n := by
  induction position, cs using Lexeme.scanFrom.induct with
  | case1 position =>
    rw [Lexeme.scanFrom_nil] at h
    cases h
  | case2 position c cs hnone =>
    rw [Lexeme.scanFrom_eq_error (List.cons_ne_nil c cs) hnone] at h
    cases h
    have hread : token.read (c :: cs) = none := by
      rw [read_token, hnone]
      rfl
    rw [readAll_of_none hread]
    exact ⟨List.cons_ne_nil c cs, 0, rfl, rfl⟩
  | case3 position c cs l rest hnext ih =>
    obtain ⟨hne, n, rfl, hdrop⟩ := ih (Lexeme.scanFrom_eq_error_of_next? hnext h)
    rw [readAll_token_of_next? hnext]
    refine ⟨hne, l.text.length + n, Nat.add_assoc _ _ _, ?_⟩
    rw [hdrop, ← Lexeme.text_append_of_next? hnext, List.drop_length_add_append]

theorem read_tokens (text : List Char) :
    tokens.read text = if text ≠ [] ∧ readAll token.read text = [] then some [] else none := by
  show ((token.read text).bind fun rest => some (readAll token.read rest)).bind endOfText.read = _
  cases hread : token.read text with
  | none => simp [readAll_of_none hread]
  | some rest =>
    rw [read_token] at hread
    obtain ⟨⟨l, _⟩, hnext, rfl⟩ := Option.map_eq_some_iff.mp hread
    have hne : text ≠ [] := by
      rintro rfl
      cases hnext
    rw [readAll_token_of_next? hnext, Option.bind_some, Option.bind_some]
    unfold read
    split <;> simp_all

/-- The grammar reads a text exactly if the scan does. -/
theorem read_tokens_eq_some_iff {text : List Char} :
    tokens.read text = some [] ↔ ∃ ls, scan text = .ok ls := by
  rw [read_tokens]
  unfold scan
  by_cases hempty : text = []
  · simp [hempty]
  · cases hscan : scanFrom 0 text with
    | ok ls => simp [hempty, readAll_token_of_scanFrom hscan]
    | error failure => simp [hempty, (readAll_token_of_scanFrom_error hscan).1]

/-- A scan that fails stands where the repetition of tokens stops. -/
theorem readAll_token_of_scan_error {text : List Char} {position : Nat}
    (h : scan text = .error position) : readAll token.read text = text.drop position := by
  unfold scan at h
  split at h
  · rename_i hempty
    cases h
    rw [hempty]
    exact readAll_of_none rfl
  · obtain ⟨-, n, rfl, hdrop⟩ := readAll_token_of_scanFrom_error h
    rw [hdrop, Nat.zero_add]

end Pattern

end InfixArithmetic
