/-
  The text of a finite number, evaluated, is the number.

  A literal evaluates to what is read for it and a literal after a minus sign to the opposite of
  that, for numbers of any kind. The text of a finite `Float` is one of the two: the literal is that
  of the bits below the sign bit and is read as these bits (`readLiteral?_realLiteral`), and the
  opposite of a number without a sign bit has the sign bit and is the same otherwise.

  This text is what a user sees of a value: an answer prints it behind three words
  (`Calculator.stdout_answer_eq_iff`).
-/
import InfixArithmetic.Calculator.Run
import InfixArithmetic.Proofs.Decimals
import InfixArithmetic.Proofs.Evaluation
import InfixArithmetic.Proofs.FloatBits

namespace InfixArithmetic

/-! ## Signed literals -/

section

variable {α : Type} [Arithmetic α] [ReadsLiterals α] {config : Config} {literal : List Char}
  {value : α}

theorem evaluate_literal (hliteral : IsLiteralOf config.decimals literal)
    (hread : Arithmetic.readLiteral? literal = some value)
    (hlen : (String.ofList literal).utf8ByteSize ≤ config.maxInputLen) :
    evaluate config (String.ofList literal) = .ok value := by
  have hderives : (Expression.number literal).Derives config.unaryMinus .expression :=
    .ofTerm <| .ofFactor <| .ofPrimary <| .literal literal
  have hwrites := hderives.writes_ofList (List.forall_mem_singleton.mpr hliteral)
  exact hwrites.evaluate_of_read? hlen (Expression.read?_number hread)

theorem evaluate_minus_literal (hminus : config.unaryMinus = true)
    (hliteral : IsLiteralOf config.decimals literal)
    (hread : Arithmetic.readLiteral? literal = some value)
    (hlen : (String.ofList ('-' :: literal)).utf8ByteSize ≤ config.maxInputLen) :
    evaluate config (String.ofList ('-' :: literal)) = .ok (-value) := by
  have hderives :
      (Expression.negation (.number literal)).Derives config.unaryMinus .expression :=
    .ofTerm <| .ofFactor <| .minus hminus <| .ofPrimary <| .literal literal
  have hwrites := hderives.writes_ofList (List.forall_mem_singleton.mpr hliteral)
  exact hwrites.evaluate_of_read? hlen (Expression.read?_negation (Expression.read?_number hread))

end

/-! ## Finite numbers -/

section

open BinaryFormat (binary64)

/-- The characters of a finite number without its sign. -/
def realLiteral (x : Float) : List Char :=
  positional binary64.scale (binary64.shortestDecimal (x.toBits.toNat % binary64.signBit))

variable {x : Float}

theorem unsignedText_eq (hfinite : x.isFinite = true) :
    binary64.unsignedText (x.toBits.toNat % binary64.signBit) = String.ofList (realLiteral x) :=
  if_pos (unsigned_lt_infinity hfinite)

theorem realText_of_lt (hfinite : x.isFinite = true) (hsign : x.toBits.toNat < binary64.signBit) :
    realText x = String.ofList (realLiteral x) := by
  unfold realText BinaryFormat.text
  dsimp only
  rw [if_neg (Nat.lt_asymm (unsigned_lt_infinity hfinite)), if_pos hsign, unsignedText_eq hfinite]

theorem realText_of_not_lt (hfinite : x.isFinite = true)
    (hsign : ¬x.toBits.toNat < binary64.signBit) :
    realText x = String.ofList ('-' :: realLiteral x) := by
  unfold realText BinaryFormat.text
  dsimp only
  rw [if_neg (Nat.lt_asymm (unsigned_lt_infinity hfinite)), if_neg hsign, unsignedText_eq hfinite]
  exact String.ofList_append.symm

theorem isLiteralOf_realLiteral {decimals : Bool} (hdecimals : decimals = true) (x : Float) :
    IsLiteralOf decimals (realLiteral x) :=
  ⟨isLiteral_positional _ _, fun h => absurd (h.symm.trans hdecimals) Bool.false_ne_true⟩

/-- What is written of a number without its sign is read as its bits without the sign bit. -/
theorem readLiteral?_realLiteral (hfinite : x.isFinite = true) :
    Arithmetic.readLiteral? (realLiteral x) =
      some (Float.ofBits (x.toBits.toNat % binary64.signBit).toUInt64) :=
  congrArg (Option.map _)
    (BinaryFormat.read?_positional (by decide) (unsigned_lt_infinity hfinite))

/-- An answer prints the line of a text exactly if the expression has a value with this text. -/
theorem Calculator.stdout_answer_eq_iff {config : Config} {expression shown : String} :
    (answer config expression).stdout = "The result is " ++ shown ++ "\n" ↔
      ∃ value, evaluate config expression = .ok value ∧ shown = realText value := by
  unfold answer
  cases (evaluate config expression : Except EvalError Float) with
  | ok value =>
    constructor
    · intro h
      have hline : "The result is " ++ realText value ++ "\n" =
          "The result is " ++ shown ++ "\n" := h
      rw [String.append_left_inj, String.append_right_inj] at hline
      exact ⟨value, rfl, hline.symm⟩
    · rintro ⟨_, hvalue, rfl⟩
      cases hvalue
      rfl
  | error e =>
    constructor
    · intro h
      simp at h
    · rintro ⟨_, hvalue, -⟩
      cases hvalue

/-- What is printed for a finite number evaluates to the number, bit for bit. -/
theorem evaluate_realText (config : Config) (x : Float) (hfinite : x.isFinite = true)
    (hdecimals : config.decimals = true) (hminus : config.unaryMinus = true)
    (hlen : (realText x).utf8ByteSize ≤ config.maxInputLen) :
    evaluate config (realText x) = .ok x := by
  have hliteral := isLiteralOf_realLiteral hdecimals x
  have hread := readLiteral?_realLiteral hfinite
  by_cases hsign : x.toBits.toNat < binary64.signBit
  · rw [realText_of_lt hfinite hsign] at hlen ⊢
    rw [evaluate_literal hliteral hread hlen, ofBits_unsigned hsign]
  · rw [realText_of_not_lt hfinite hsign] at hlen ⊢
    rw [evaluate_minus_literal hminus hliteral hread hlen, neg_ofBits_unsigned hfinite hsign]

/-- The negative number next to zero, in a configuration that takes just the 327 bytes of its
text. -/
theorem evaluate_realText_least_negative :
    let x := Float.ofBits 0x8000000000000001
    let config : Config := { maxInputLen := 327, decimals := true, unaryMinus := true }
    x.isFinite = true ∧ (realText x).utf8ByteSize ≤ config.maxInputLen ∧
      evaluate config (realText x) = .ok x := by
  intro x config
  have hfinite : x.isFinite = true := by decide
  have hlen : (realText x).utf8ByteSize ≤ config.maxInputLen := by decide +kernel
  exact ⟨hfinite, hlen, evaluate_realText config x hfinite rfl rfl hlen⟩

end

end InfixArithmetic
