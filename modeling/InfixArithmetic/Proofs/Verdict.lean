/-
  What validation says of any text.

  Three measures of a text meet here: its bytes, the index of a character among all of them, and the
  characters that are left without the blanks. The verdict is said of the text alone: it is too
  long, or a character of it is foreign (`IsForeign`) and the first one that is has an index, or it
  is fit and its blanks are taken out (`validate_exact`).
-/
import InfixArithmetic.Proofs.Stripping

namespace InfixArithmetic

/-! ## Foreign characters -/

/-- The characters that expressions are written with, besides blanks. -/
def alphabet (decimals : Bool) : List Char :=
  ['0', '1', '2', '3', '4', '5', '6', '7', '8', '9', '+', '-', '*', '/', '(', ')'] ++
    if decimals then ['.'] else []

/-- Whether a character has no place in an expression. -/
def IsForeign (decimals : Bool) (c : Char) : Prop :=
  Text.isBlank c = false ∧ c ∉ alphabet decimals

instance (decimals : Bool) (c : Char) : Decidable (IsForeign decimals c) :=
  inferInstanceAs (Decidable (_ ∧ _))

theorem isDigit_iff_mem {c : Char} :
    c.isDigit = true ↔ c ∈ ['0', '1', '2', '3', '4', '5', '6', '7', '8', '9'] := by
  constructor
  · intro h
    simp only [Char.isDigit, Bool.and_eq_true, decide_eq_true_eq, ge_iff_le,
      UInt32.le_iff_toNat_le] at h
    have hlow : 48 ≤ c.toNat := h.1
    have hhigh : c.toNat ≤ 57 := h.2
    have hdigits : ∀ n < 10, Char.ofNat (48 + n) ∈
        ['0', '1', '2', '3', '4', '5', '6', '7', '8', '9'] := by decide
    have hmem := hdigits (c.toNat - 48) (by omega)
    rwa [Nat.add_sub_cancel' hlow, Char.ofNat_toNat] at hmem
  · intro h
    have hdigits : ['0', '1', '2', '3', '4', '5', '6', '7', '8', '9'].all Char.isDigit = true := rfl
    exact List.all_eq_true.mp hdigits c h

theorem isAllowed_iff_mem_alphabet {decimals : Bool} {c : Char} :
    isAllowed decimals c = true ↔ c ∈ alphabet decimals := by
  have hsplit : alphabet decimals = ['0', '1', '2', '3', '4', '5', '6', '7', '8', '9'] ++
      ['+', '-', '*', '/', '(', ')'] ++ if decimals then ['.'] else [] := rfl
  rw [hsplit, List.mem_append, List.mem_append, ← isDigit_iff_mem, isAllowed, Bool.or_eq_true,
    Bool.or_eq_true, decide_eq_true_eq]
  refine or_congr_right ?_
  cases decimals <;> simp

theorem not_isForeign_iff {decimals : Bool} {c : Char} :
    ¬IsForeign decimals c ↔ Text.isBlank c = true ∨ isAllowed decimals c = true := by
  rw [IsForeign, Classical.not_and_iff_not_or_not, Classical.not_not, Bool.not_eq_false,
    isAllowed_iff_mem_alphabet]

/-- The first character that is refused is the first foreign one; its index is the number of
characters before it. -/
theorem exists_isFirstRefused_iff {decimals : Bool} {cs : List Char} {c : Char} {position : Nat} :
    (∃ before after, IsFirstRefused decimals cs before c after ∧ before.length = position) ↔
      cs[position]? = some c ∧ IsForeign decimals c ∧
        ∀ d ∈ cs.take position, ¬IsForeign decimals d := by
  constructor
  · rintro ⟨before, after, ⟨rfl, hpasses, hblank, hallowed⟩, rfl⟩
    refine ⟨?_, ⟨hblank, ?_⟩, fun d hd => ?_⟩
    · rw [List.getElem?_append_right (Nat.le_refl _), Nat.sub_self, List.getElem?_cons_zero]
    · rw [← isAllowed_iff_mem_alphabet, hallowed]
      exact Bool.false_ne_true
    · rw [List.take_left] at hd
      exact not_isForeign_iff.mpr (hpasses d hd)
  · rintro ⟨hget, ⟨hblank, hmem⟩, hbefore⟩
    obtain ⟨hlt, rfl⟩ := List.getElem?_eq_some_iff.mp hget
    refine ⟨cs.take position, cs.drop (position + 1), ⟨?_, ?_, hblank, ?_⟩, ?_⟩
    · rw [← List.drop_eq_getElem_cons hlt, List.take_append_drop]
    · exact fun d hd => not_isForeign_iff.mp (hbefore d hd)
    · rw [← isAllowed_iff_mem_alphabet] at hmem
      exact Bool.eq_false_iff.mpr hmem
    · rw [List.length_take, Nat.min_eq_left (Nat.le_of_lt hlt)]

/-! ## The verdict -/

section

variable {config : Config} {text : String}

theorem validate_eq_invalidCharacter_iff (h : text.utf8ByteSize ≤ config.maxInputLen) {c : Char}
    {position : Nat} : validate config text = .error (.invalidCharacter c position) ↔
      text.toList[position]? = some c ∧ IsForeign config.decimals c ∧
        ∀ d ∈ text.toList.take position, ¬IsForeign config.decimals d := by
  rw [validate_eq_error_iff, ← exists_isFirstRefused_iff]
  constructor
  · rintro (⟨hlt, -⟩ | ⟨-, before, c', after, hfirst, heq⟩)
    · omega
    · cases heq
      exact ⟨before, after, hfirst, rfl⟩
  · rintro ⟨before, after, hfirst, rfl⟩
    exact .inr ⟨h, before, c, after, hfirst, rfl⟩

/-- A text that is short enough and has no foreign character loses its blanks. -/
theorem validate_eq_ok_of_forall (h : text.utf8ByteSize ≤ config.maxInputLen)
    (hall : ∀ c ∈ text.toList, ¬IsForeign config.decimals c) :
    validate config text = .ok (String.ofList (text.toList.filter fun c => !Text.isBlank c)) := by
  refine validate_eq_ok_iff.mpr ⟨h, fun c hc => ?_, rfl⟩
  obtain ⟨hmem, hblank⟩ := List.mem_filter.mp hc
  exact (not_isForeign_iff.mp (hall c hmem)).resolve_left (by simpa using hblank)

theorem exists_invalidCharacter_iff (h : text.utf8ByteSize ≤ config.maxInputLen) :
    (∃ c position, validate config text = .error (.invalidCharacter c position)) ↔
      ∃ c ∈ text.toList, IsForeign config.decimals c := by
  constructor
  · rintro ⟨c, position, herror⟩
    obtain ⟨hget, hforeign, -⟩ := (validate_eq_invalidCharacter_iff h).mp herror
    exact ⟨c, List.mem_of_getElem? hget, hforeign⟩
  · rintro ⟨c, hc, hforeign⟩
    cases hvalidate : validate config text with
    | ok stripped =>
      obtain ⟨-, hall, -⟩ := validate_eq_ok_iff.mp hvalidate
      have hkept : c ∈ nonBlanks text := List.mem_filter.mpr ⟨hc, by rw [hforeign.1]; rfl⟩
      exact absurd hforeign (not_isForeign_iff.mpr (.inr (hall c hkept)))
    | error e =>
      rcases validate_eq_error_iff.mp hvalidate with ⟨hlt, -⟩ | ⟨-, before, d, after, -, rfl⟩
      · omega
      · exact ⟨d, before.length, rfl⟩

end

/-- The verdict on any text. It is too long exactly if its bytes exceed the limit, and the error
says both numbers. Otherwise a character is refused exactly if some character is foreign; it is the
first one, and the error says its index among all characters. Otherwise the characters that are not
blank are left, in their order. -/
theorem validate_exact (config : Config) (text : String) :
    (∀ length limit, validate config text = .error (.inputTooLong length limit) ↔
        config.maxInputLen < text.utf8ByteSize ∧
          length = text.utf8ByteSize ∧ limit = config.maxInputLen) ∧
      (text.utf8ByteSize ≤ config.maxInputLen →
        ((∃ c position, validate config text = .error (.invalidCharacter c position)) ↔
            ∃ c ∈ text.toList, IsForeign config.decimals c) ∧
          (∀ c position, validate config text = .error (.invalidCharacter c position) ↔
            text.toList[position]? = some c ∧ IsForeign config.decimals c ∧
              ∀ d ∈ text.toList.take position, ¬IsForeign config.decimals d) ∧
          ((∀ c ∈ text.toList, ¬IsForeign config.decimals c) →
            validate config text =
              .ok (String.ofList (text.toList.filter fun c => !Text.isBlank c)))) := by
  constructor
  · intro length limit
    rw [validate_eq_error_iff]
    constructor
    · rintro (⟨hlt, heq⟩ | ⟨-, before, c, after, -, heq⟩)
      · cases heq
        exact ⟨hlt, rfl, rfl⟩
      · cases heq
    · rintro ⟨hlt, rfl, rfl⟩
      exact .inl ⟨hlt, rfl⟩
  · intro h
    exact ⟨exists_invalidCharacter_iff h, fun c position => validate_eq_invalidCharacter_iff h,
      validate_eq_ok_of_forall h⟩

/-- An ideographic space is blank and takes three bytes, and a zero-width space is foreign: it is
refused with the index 3, before the point that is foreign without decimals. One byte less, and the
text is too long; without the two characters, it is fit. -/
theorem validate_exact_zero_width_space :
    let config : Config := { maxInputLen := 10, decimals := false }
    let text := "1\u3000+\u200b.2"
    text.utf8ByteSize ≤ config.maxInputLen ∧
      (text.toList[3]? = some '\u200b' ∧ IsForeign false '\u200b' ∧
        ∀ d ∈ text.toList.take 3, ¬IsForeign false d) ∧
      validate config text = .error (.invalidCharacter '\u200b' 3) ∧
      validate { config with maxInputLen := 9 } text = .error (.inputTooLong 10 9) ∧
      (∀ c ∈ "1\u3000+2".toList, ¬IsForeign false c) ∧
      validate config "1\u3000+2" = .ok "1+2" := by
  intro config text
  have hlen : text.utf8ByteSize ≤ config.maxInputLen := by decide
  have hnone : ∀ cs : List Char,
      cs.all (fun d => Text.isBlank d || isAllowed false d) = true →
      ∀ d ∈ cs, ¬IsForeign false d := by
    intro cs hall d hd
    exact not_isForeign_iff.mpr (Bool.or_eq_true_iff.mp (List.all_eq_true.mp hall d hd))
  have hfirst : text.toList[3]? = some '\u200b' ∧ IsForeign false '\u200b' ∧
      ∀ d ∈ text.toList.take 3, ¬IsForeign false d :=
    ⟨by decide, by decide, hnone _ (by decide)⟩
  have hfit : ∀ c ∈ "1\u3000+2".toList, ¬IsForeign false c := hnone _ (by decide)
  obtain ⟨-, hwithin⟩ := validate_exact config text
  obtain ⟨hlong, -⟩ := validate_exact { config with maxInputLen := 9 } text
  obtain ⟨-, hwithout⟩ := validate_exact config "1\u3000+2"
  exact ⟨hlen, hfirst, ((hwithin hlen).2.1 _ _).mpr hfirst, (hlong 10 9).mpr (by decide), hfit,
    (hwithout (by decide)).2.2 hfit⟩

end InfixArithmetic
