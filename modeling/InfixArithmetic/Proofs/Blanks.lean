/-
  Blanks do not matter, but for the index of a character that is refused.

  Two texts with the same characters apart from blanks are refused for the same character, which may
  stand at another index in each (`IsFirstRefused.exists_of_filter_eq`), or give the same stripped
  text. Later stages see the stripped text only and have no error with such an index, so the two
  outcomes stay related (`SameButIndex.bind`) up to the value (`evaluation_ignores_blanks`).
-/
import InfixArithmetic.Proofs.Blame
import InfixArithmetic.Real.Literal
import Mathlib.Data.String.Basic

namespace InfixArithmetic

/-! ## Characters -/

theorem utf8ByteSize_ofList_filter_le (p : Char → Bool) (cs : List Char) :
    (String.ofList (cs.filter p)).utf8ByteSize ≤ (String.ofList cs).utf8ByteSize := by
  rw [String.utf8ByteSize_ofList, String.utf8ByteSize_ofList]
  induction cs with
  | nil => exact Nat.le_refl _
  | cons c cs ih =>
    rw [List.filter_cons, String.utf8Len_cons]
    split
    · rw [String.utf8Len_cons]
      omega
    · omega

/-- The same character is refused in both texts, and the characters in front of it are the same
apart from blanks. -/
theorem IsFirstRefused.exists_of_filter_eq {decimals : Bool} {cs cs' before after : List Char}
    {c : Char} (h : IsFirstRefused decimals cs before c after)
    (hcs : cs.filter (fun d => !Text.isBlank d) = cs'.filter (fun d => !Text.isBlank d)) :
    ∃ before' after', IsFirstRefused decimals cs' before' c after' ∧
      before.filter (fun d => !Text.isBlank d) = before'.filter (fun d => !Text.isBlank d) := by
  obtain ⟨rfl, hpasses, hblank, hallowed⟩ := h
  have hkeep : (!Text.isBlank c) = true := by rw [hblank]; rfl
  rw [List.filter_append, List.filter_cons, if_pos hkeep] at hcs
  obtain ⟨front, back, rfl, hfront, hback⟩ := List.filter_eq_append_iff.mp hcs.symm
  -- the other text may have blanks of its own directly in front of the character
  obtain ⟨blanks, after', rfl, hblanks, -, -⟩ := List.filter_eq_cons_iff.mp hback
  have hnone : blanks.filter (fun d => !Text.isBlank d) = [] := List.filter_eq_nil_iff.mpr hblanks
  refine ⟨front ++ blanks, after', ⟨?_, ?_, hblank, hallowed⟩, ?_⟩
  · rw [List.append_assoc]
  · intro d hd
    by_cases hd' : Text.isBlank d = true
    · exact .inl hd'
    · have hkept : d ∈ (front ++ blanks).filter fun d => !Text.isBlank d :=
        List.mem_filter.mpr ⟨hd, by simpa using hd'⟩
      rw [List.filter_append, hnone, List.append_nil, hfront] at hkept
      exact hpasses d (List.mem_filter.mp hkept).1
  · rw [List.filter_append, hnone, List.append_nil, hfront]

/-! ## Outcomes -/

/-- Whether two outcomes, each of its text, are the same, or the refusal of the same character at
its own index in each text. -/
inductive SameButIndex (text text' : String) {β : Type} :
    Except EvalError β → Except EvalError β → Prop where
  | same {outcome : Except EvalError β} :
      (∀ c position, outcome ≠ .error (.invalidCharacter c position)) →
      SameButIndex text text' outcome outcome
  | moved {before after before' after' : List Char} {c : Char} :
      text.toList = before ++ c :: after → text'.toList = before' ++ c :: after' →
      Text.isBlank c = false →
      before.filter (fun d => !Text.isBlank d) = before'.filter (fun d => !Text.isBlank d) →
      SameButIndex text text' (.error (.invalidCharacter c before.length))
        (.error (.invalidCharacter c before'.length))

/-- A step that refuses no character leaves outcomes related. -/
theorem SameButIndex.bind {text text' : String} {β γ : Type}
    {outcome outcome' : Except EvalError β} (h : SameButIndex text text' outcome outcome')
    {f : β → Except EvalError γ}
    (hf : ∀ b c position, f b ≠ .error (.invalidCharacter c position)) :
    SameButIndex text text' (outcome >>= f) (outcome' >>= f) := by
  cases h with
  | same hnot =>
    refine .same fun c position herror => ?_
    rcases bind_eq_error_iff.mp herror with herror | ⟨b, -, herror⟩
    · exact hnot c position herror
    · exact hf b c position herror
  | moved htext htext' hblank hbefore => exact .moved htext htext' hblank hbefore

/-! ## Stages -/

section

variable {config : Config} {text text' : String}

theorem sameButIndex_validate (hlen : text.utf8ByteSize ≤ config.maxInputLen)
    (hlen' : text'.utf8ByteSize ≤ config.maxInputLen) (h : nonBlanks text = nonBlanks text') :
    SameButIndex text text' (validate config text) (validate config text') := by
  cases hvalid : validate config text with
  | ok stripped =>
    obtain ⟨-, hall, rfl⟩ := validate_eq_ok_iff.mp hvalid
    rw [h] at hall ⊢
    have hvalid' : validate config text' = .ok (String.ofList (nonBlanks text')) :=
      validate_eq_ok_iff.mpr ⟨hlen', hall, rfl⟩
    rw [hvalid']
    exact .same nofun
  | error e =>
    rcases validate_eq_error_iff.mp hvalid with ⟨hlt, -⟩ | ⟨-, before, c, after, hfirst, rfl⟩
    · omega
    · obtain ⟨before', after', hfirst', hbefore⟩ := hfirst.exists_of_filter_eq h
      have hvalid' : validate config text' = .error (.invalidCharacter c before'.length) :=
        validate_eq_error_iff.mpr (.inr ⟨hlen', before', c, after', hfirst', rfl⟩)
      rw [hvalid']
      exact .moved hfirst.eq_append hfirst'.eq_append hfirst.not_isBlank hbefore

variable {α : Type} [Arithmetic α]

theorem ofStripped_ne_invalidCharacter (unaryMinus : Bool) (stripped : List Char) (c : Char)
    (position : Nat) :
    Token.ofStripped (α := α) unaryMinus stripped ≠ .error (.invalidCharacter c position) := by
  intro h
  rcases Token.error_of_ofStripped h with ⟨_, he⟩ | ⟨_, -, -, he⟩ <;> cases he

theorem reduce_ne_invalidCharacter (tokens : List (Token α)) (c : Char) (position : Nat) :
    (reduce tokens).result ≠ .error (.invalidCharacter c position) := by
  intro h
  rcases error_of_reduce h with ⟨_, _, -, he⟩ | he | ⟨_, _, he⟩ <;> cases he

theorem evaluate_eq_bind (config : Config) (text : String) :
    evaluate (α := α) config text =
      tokenize config text >>= fun tokens => (reduce tokens).result := by
  unfold evaluate evaluation
  cases tokenize (α := α) config text <;> rfl

/-- Two texts that are not too long and have the same characters apart from blanks have the same
stripped text, tokens and value, or the same error, except that a character is refused at its own
index in each. A stripped text is validated as it is. -/
theorem evaluation_ignores_blanks (config : Config) :
    (∀ text text' : String, text.utf8ByteSize ≤ config.maxInputLen →
        text'.utf8ByteSize ≤ config.maxInputLen → nonBlanks text = nonBlanks text' →
        SameButIndex text text' (validate config text) (validate config text') ∧
          SameButIndex text text' (tokenize (α := α) config text) (tokenize config text') ∧
          SameButIndex text text' (evaluate (α := α) config text) (evaluate config text')) ∧
      ∀ text stripped : String, validate config text = .ok stripped →
        validate config stripped = .ok stripped := by
  constructor
  · intro text text' hlen hlen' h
    have hvalid := sameButIndex_validate hlen hlen' h
    have htokens : SameButIndex text text' (tokenize (α := α) config text)
        (tokenize config text') :=
      hvalid.bind fun _ => ofStripped_ne_invalidCharacter _ _
    refine ⟨hvalid, htokens, ?_⟩
    rw [evaluate_eq_bind, evaluate_eq_bind]
    exact htokens.bind reduce_ne_invalidCharacter
  · intro text stripped hvalid
    obtain ⟨hlen, hall, rfl⟩ := validate_eq_ok_iff.mp hvalid
    have hsame : nonBlanks (String.ofList (nonBlanks text)) = nonBlanks text := by
      unfold nonBlanks
      rw [String.toList_ofList, List.filter_filter]
      simp only [Bool.and_self]
    have hle : (String.ofList (nonBlanks text)).utf8ByteSize ≤ text.utf8ByteSize := by
      have hfilter := utf8ByteSize_ofList_filter_le (fun c => !Text.isBlank c) text.toList
      rwa [String.ofList_toList] at hfilter
    refine validate_eq_ok_iff.mpr ⟨Nat.le_trans hle hlen, ?_, ?_⟩
    · rw [hsame]
      exact hall
    · rw [hsame]

/-- A letter is refused at index 5 behind a blank of two bytes, and at index 2 in front of one of
three; and a text with a paragraph separator in it is stripped once. -/
theorem evaluation_ignores_blanks_refused_letter :
    let config : Config := { maxInputLen := 9 }
    let text := " 2 +\u00a0x"
    let text' := "2+x\u3000"
    text.utf8ByteSize ≤ config.maxInputLen ∧ text'.utf8ByteSize ≤ config.maxInputLen ∧
      nonBlanks text = nonBlanks text' ∧
      SameButIndex text text' (validate config text) (validate config text') ∧
      validate config text = .error (.invalidCharacter 'x' 5) ∧
      validate config text' = .error (.invalidCharacter 'x' 2) ∧
      validate config "2\u2029+\t3" = .ok "2+3" ∧ validate config "2+3" = .ok "2+3" := by
  intro config text text'
  have hlen : text.utf8ByteSize ≤ config.maxInputLen := by decide
  have hlen' : text'.utf8ByteSize ≤ config.maxInputLen := by decide
  have hsame : nonBlanks text = nonBlanks text' := by decide
  have herror : validate { maxInputLen := 9 } " 2 +\u00a0x" =
      .error (.invalidCharacter 'x' 5) := rfl
  have herror' : validate { maxInputLen := 9 } "2+x\u3000" =
      .error (.invalidCharacter 'x' 2) := rfl
  have hvalid : validate config "2\u2029+\t3" = .ok "2+3" :=
    validate_eq_ok_iff.mpr ⟨by decide, List.all_eq_true.mp (by decide), by decide⟩
  obtain ⟨hblanks, hstripped⟩ := evaluation_ignores_blanks (α := Float) config
  obtain ⟨hvalidate, -, -⟩ := hblanks text text' hlen hlen' hsame
  exact ⟨hlen, hlen', hsame, hvalidate, herror, herror', hvalid, hstripped _ _ hvalid⟩

end

end InfixArithmetic
