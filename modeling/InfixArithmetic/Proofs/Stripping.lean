/-
  The character that validation refuses.

  A text is refused at its first character that is neither blank nor allowed (`IsFirstRefused`), by
  the index of that character among all characters (`strip_eq_error_iff`). Together with
  `validate_eq_ok_iff` this says what validation does with any text: the length comes first, then
  that character (`validate_eq_error_iff`).
-/
import InfixArithmetic.Proofs.Reading

namespace InfixArithmetic

/-! ## Characters -/

/-- Whether a character of a text is the first one that is refused, with what stands around it. -/
structure IsFirstRefused (decimals : Bool) (cs before : List Char) (c : Char) (after : List Char) :
    Prop where
  eq_append : cs = before ++ c :: after
  passes_of_mem : ∀ d ∈ before, Text.isBlank d = true ∨ isAllowed decimals d = true
  not_isBlank : Text.isBlank c = false
  not_isAllowed : isAllowed decimals c = false

variable {decimals : Bool} {position : Nat} {cs before after : List Char} {c d : Char}
  {e : EvalError}

/-- A character that passes may stand in front. -/
theorem IsFirstRefused.cons (h : IsFirstRefused decimals cs before c after)
    (hd : Text.isBlank d = true ∨ isAllowed decimals d = true) :
    IsFirstRefused decimals (d :: cs) (d :: before) c after :=
  ⟨congrArg (d :: ·) h.eq_append, List.forall_mem_cons.mpr ⟨hd, h.passes_of_mem⟩, h.not_isBlank,
    h.not_isAllowed⟩

theorem exists_isFirstRefused (h : strip decimals position cs = .error e) :
    ∃ before c after, IsFirstRefused decimals cs before c after ∧
      e = .invalidCharacter c (position + before.length) := by
  induction cs generalizing position with
  | nil => cases h
  | cons d cs ih =>
    have hlength : ∀ before : List Char,
        position + 1 + before.length = position + (d :: before).length := by
      intro before
      rw [List.length_cons]
      omega
    rw [strip] at h
    split at h
    · rename_i hblank
      obtain ⟨before, c, after, hfirst, rfl⟩ := ih h
      exact ⟨d :: before, c, after, hfirst.cons (.inl hblank), by rw [hlength]⟩
    · rename_i hblank
      split at h
      · rename_i hallowed
        rcases bind_eq_error_iff.mp h with h | ⟨rest, -, h⟩
        · obtain ⟨before, c, after, hfirst, rfl⟩ := ih h
          exact ⟨d :: before, c, after, hfirst.cons (.inr hallowed), by rw [hlength]⟩
        · cases h
      · rename_i hallowed
        cases h
        exact ⟨[], d, cs, ⟨rfl, List.forall_mem_nil _, Bool.eq_false_iff.mpr hblank,
          Bool.eq_false_iff.mpr hallowed⟩, rfl⟩

theorem IsFirstRefused.strip_eq_error (h : IsFirstRefused decimals cs before c after) :
    strip decimals position cs = .error (.invalidCharacter c (position + before.length)) := by
  obtain ⟨rfl, hpasses, hblank, hallowed⟩ := h
  induction before generalizing position with
  | nil =>
    rw [List.nil_append, strip, hblank, hallowed]
    rfl
  | cons d before ih =>
    obtain ⟨hd, hbefore⟩ := List.forall_mem_cons.mp hpasses
    have hlength : position + 1 + before.length = position + (d :: before).length := by
      rw [List.length_cons]
      omega
    have hrest : strip decimals (position + 1) (before ++ c :: after) =
        .error (.invalidCharacter c (position + (d :: before).length)) := by
      rw [← hlength]
      exact ih hbefore
    rw [List.cons_append, strip, hrest]
    split
    · rfl
    · rename_i hnot
      rw [if_pos (hd.resolve_left hnot)]
      rfl

/-- What is refused is the first character that is neither blank nor allowed. -/
theorem strip_eq_error_iff : strip decimals position cs = .error e ↔
    ∃ before c after, IsFirstRefused decimals cs before c after ∧
      e = .invalidCharacter c (position + before.length) := by
  constructor
  · exact exists_isFirstRefused
  · rintro ⟨before, c, after, hfirst, rfl⟩
    exact hfirst.strip_eq_error

/-! ## Texts -/

theorem validate_eq_error_iff {config : Config} {text : String} : validate config text = .error e ↔
    (config.maxInputLen < text.utf8ByteSize ∧
        e = .inputTooLong text.utf8ByteSize config.maxInputLen) ∨
      (text.utf8ByteSize ≤ config.maxInputLen ∧
        ∃ before c after, IsFirstRefused config.decimals text.toList before c after ∧
          e = .invalidCharacter c before.length) := by
  rw [validate]
  by_cases hlen : config.maxInputLen < text.utf8ByteSize
  · rw [if_pos hlen]
    constructor
    · intro h
      cases h
      exact .inl ⟨hlen, rfl⟩
    · rintro (⟨-, rfl⟩ | ⟨hle, -⟩)
      · rfl
      · omega
  · rw [if_neg hlen, bind_eq_error_iff, strip_eq_error_iff]
    constructor
    · rintro (⟨before, c, after, hfirst, rfl⟩ | ⟨stripped, -, h⟩)
      · exact .inr ⟨Nat.le_of_not_lt hlen, before, c, after, hfirst, by rw [Nat.zero_add]⟩
      · cases h
    · rintro (⟨hlt, -⟩ | ⟨-, before, c, after, hfirst, rfl⟩)
      · exact absurd hlt hlen
      · exact .inl ⟨before, c, after, hfirst, by rw [Nat.zero_add]⟩

end InfixArithmetic
