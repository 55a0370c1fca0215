/-
  A looser configuration gives the answers that a stricter one has given.

  A configuration can be loosened in its limit and in its alphabet, the mode of the minus sign apart
  (`Config.LoosensTo`). Both are looked at by validation alone, and what may change there is one of
  two refusals: the text was too long, or its first refused character was a point (`IsLiftable`).
  Any other outcome stays as it is, with its log (`evaluation_of_loosensTo`).
-/
import InfixArithmetic.Proofs.Stripping
import InfixArithmetic.Real.Literal

namespace InfixArithmetic

/-- Whether a configuration reads minus signs the same and lets pass all that another one does. -/
structure Config.LoosensTo (config config' : Config) : Prop where
  maxInputLen_le : config.maxInputLen ≤ config'.maxInputLen
  decimals_of_decimals : config.decimals = true → config'.decimals = true
  unaryMinus_eq : config'.unaryMinus = config.unaryMinus

/-- Whether an outcome is a refusal that a looser configuration may lift: for the length of the
text, or for a point. -/
def IsLiftable {β : Type} : Except EvalError β → Prop
  | .error (.inputTooLong _ _) => True
  | .error (.invalidCharacter c _) => c = '.'
  | _ => False

variable {config config' : Config}

/-! ## Characters -/

theorem isAllowed_of_imp {decimals decimals' : Bool} (h : decimals = true → decimals' = true)
    {c : Char} (hc : isAllowed decimals c = true) : isAllowed decimals' c = true := by
  unfold isAllowed at hc ⊢
  cases decimals with
  | true => rwa [h rfl]
  | false =>
    rw [Bool.false_and, Bool.or_false] at hc
    rw [hc, Bool.true_or]

/-- Only the point is in one alphabet and not in the other. -/
theorem isAllowed_eq_of_ne {c : Char} (hc : c ≠ '.') (decimals decimals' : Bool) :
    isAllowed decimals c = isAllowed decimals' c := by
  have hpoint : (c == '.') = false := by simpa using hc
  unfold isAllowed
  rw [hpoint, Bool.and_false, Bool.and_false]

/-- The first refused character is still refused, unless it is a point. -/
theorem IsFirstRefused.of_imp {decimals decimals' : Bool} (h : decimals = true → decimals' = true)
    {cs before after : List Char} {c : Char} (hfirst : IsFirstRefused decimals cs before c after)
    (hc : c ≠ '.') : IsFirstRefused decimals' cs before c after := by
  refine ⟨hfirst.eq_append, fun d hd => ?_, hfirst.not_isBlank, ?_⟩
  · exact (hfirst.passes_of_mem d hd).imp_right (isAllowed_of_imp h)
  · rw [isAllowed_eq_of_ne hc decimals' decimals]
    exact hfirst.not_isAllowed

/-! ## Texts -/

theorem validate_of_loosensTo (h : config.LoosensTo config') {text : String}
    (hsettled : ¬IsLiftable (validate config text)) :
    validate config' text = validate config text := by
  cases hvalid : validate config text with
  | ok stripped =>
    obtain ⟨hlen, hall, rfl⟩ := validate_eq_ok_iff.mp hvalid
    refine validate_eq_ok_iff.mpr ⟨Nat.le_trans hlen h.maxInputLen_le, fun c hc => ?_, rfl⟩
    exact isAllowed_of_imp h.decimals_of_decimals (hall c hc)
  | error e =>
    rw [hvalid] at hsettled
    rcases validate_eq_error_iff.mp hvalid with ⟨-, rfl⟩ | ⟨hlen, before, c, after, hfirst, rfl⟩
    · exact absurd trivial hsettled
    · exact validate_eq_error_iff.mpr (.inr ⟨Nat.le_trans hlen h.maxInputLen_le, before, c, after,
        hfirst.of_imp h.decimals_of_decimals hsettled, rfl⟩)

variable {α : Type} [Arithmetic α]

theorem isLiftable_evaluate {text : String} (h : IsLiftable (validate config text)) :
    IsLiftable (evaluate (α := α) config text) := by
  cases hvalid : validate config text with
  | ok stripped =>
    rw [hvalid] at h
    cases h
  | error e =>
    have htokens : tokenize (α := α) config text = .error e := by
      rw [tokenize, hvalid]
      rfl
    rw [evaluate_of_tokenize_error htokens]
    rw [hvalid] at h
    cases e with
    | inputTooLong length limit => trivial
    | invalidCharacter c position => exact h
    | _ => cases h

/-- Under a looser configuration a text has the same value or the same error, and the same log,
unless the stricter one has refused it for its length or for a point. -/
theorem evaluation_of_loosensTo (h : config.LoosensTo config') (text : String)
    (hsettled : ¬IsLiftable (evaluate (α := α) config text)) :
    (evaluation config' text : Evaluation α) = evaluation config text := by
  have hvalid : validate config' text = validate config text :=
    validate_of_loosensTo h fun hliftable => hsettled (isLiftable_evaluate hliftable)
  have htokens : tokenize (α := α) config' text = tokenize config text := by
    unfold tokenize
    rw [hvalid, h.unaryMinus_eq]
  unfold evaluation
  rw [htokens]

/-- A text that ends in a point behind a letter, read without and with decimals. -/
theorem evaluation_of_loosensTo_letter_first :
    let config : Config := { maxInputLen := 5, decimals := false }
    let config' : Config := { maxInputLen := 6 }
    config.LoosensTo config' ∧ ¬IsLiftable (evaluate (α := Float) config "1+x.") ∧
      (evaluation config' "1+x." : Evaluation Float).result = .error (.invalidCharacter 'x' 2) ∧
      (evaluation config' "1+x." : Evaluation Float).log = [.failed (.invalidCharacter 'x' 2)] := by
  intro config config'
  have hloosens : config.LoosensTo config' := ⟨by decide, fun _ => rfl, rfl⟩
  have herror : (evaluation { maxInputLen := 5, decimals := false } "1+x." : Evaluation Float) =
      ⟨[.failed (.invalidCharacter 'x' 2)], .error (.invalidCharacter 'x' 2)⟩ := rfl
  have hsettled : ¬IsLiftable (evaluate (α := Float) config "1+x.") := by
    show ¬IsLiftable (evaluation { maxInputLen := 5, decimals := false } "1+x.").result
    rw [herror]
    exact (by decide : 'x' ≠ '.')
  have hsame := evaluation_of_loosensTo hloosens "1+x." hsettled
  have hresult := hsame.trans herror
  exact ⟨hloosens, hsettled, congrArg Evaluation.result hresult, congrArg Evaluation.log hresult⟩

end InfixArithmetic
