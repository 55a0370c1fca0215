/-
  The decimal text of a finite value is a literal and reads back as the value.

  `positional` leaves out the zeros at the end of a fraction. So the text has fewer places than the
  decimal it is made of, and numerator and denominator lack the same power of ten
  (`exists_factor_fractionDigits`); rounding does not see that. Of the decimals that are tried for a
  value only those that round to it are taken, and when none of the short ones is, the exact
  decimal is left, which rounds to the value as every value does (`readsBack_exactDecimal`).
-/
import InfixArithmetic.Proofs.Rounding
import InfixArithmetic.Real.Literal
import InfixArithmetic.Real.Positional

namespace InfixArithmetic

/-! ## Runs of digits -/

theorem pow_ten_pos (exponent : Nat) : 0 < Nat.pow 10 exponent := Nat.pow_pos (by decide)

theorem Text.digitsValue_append (front back : List Char) :
    digitsValue (front ++ back) =
      digitsValue front * Nat.pow 10 back.length + digitsValue back :=
  calc digitsValue (front ++ back)
      = Nat.ofDigitChars 10 back (digitsValue front) := Nat.ofDigitChars_append 0
    _ = 10 ^ back.length * digitsValue front + digitsValue back :=
        Nat.ofDigitChars_eq_ofDigitChars_zero
    _ = digitsValue front * Nat.pow 10 back.length + digitsValue back := by
        rw [Nat.mul_comm, Nat.pow_eq]

theorem Text.digitsValue_toDigits (n : Nat) : digitsValue (Nat.toDigits 10 n) = n :=
  Nat.ofDigitChars_ten_toDigits

theorem Text.digitsValue_digitChar {digit : Nat} (h : digit < 10) :
    digitsValue [digit.digitChar] = digit := by
  rw [← Nat.toDigits_of_lt_base h]
  exact digitsValue_toDigits digit

theorem fractionDigits_zero (places : Nat) : fractionDigits places 0 = [] := by
  cases places <;> rfl

theorem isDigit_of_mem_fractionDigits {places fraction : Nat} (h : fraction < Nat.pow 10 places) :
    ∀ c ∈ fractionDigits places fraction, c.isDigit := by
  induction places generalizing fraction with
  | zero => exact List.forall_mem_nil _
  | succ places ih =>
    rw [fractionDigits]
    split
    · exact List.forall_mem_nil _
    · refine List.forall_mem_cons.mpr ⟨?_, ih (Nat.mod_lt _ (pow_ten_pos places))⟩
      rw [Nat.isDigit_digitChar, decide_eq_true_eq]
      exact Nat.div_lt_of_lt_mul h

/-- What the digits of a fraction lack to all its places is one factor, in the value and in the
power of ten. -/
theorem exists_factor_fractionDigits {places fraction : Nat} (h : fraction < Nat.pow 10 places) :
    ∃ factor, Nat.pow 10 (fractionDigits places fraction).length * factor = Nat.pow 10 places ∧
      Text.digitsValue (fractionDigits places fraction) * factor = fraction := by
  induction places generalizing fraction with
  | zero => exact ⟨1, rfl, (Nat.lt_one_iff.mp h).symm⟩
  | succ places ih =>
    rw [fractionDigits]
    split
    · next hzero =>
      exact ⟨Nat.pow 10 (places + 1), Nat.one_mul _, (Nat.zero_mul _).trans hzero.symm⟩
    · obtain ⟨factor, hplaces, hvalue⟩ := ih (Nat.mod_lt fraction (pow_ten_pos places))
      have hdigit : fraction / Nat.pow 10 places < 10 := Nat.div_lt_of_lt_mul h
      refine ⟨factor, ?_, ?_⟩
      · calc Nat.pow 10 (fractionDigits places _).length * 10 * factor
            = Nat.pow 10 (fractionDigits places _).length * factor * 10 :=
              Nat.mul_right_comm _ 10 factor
          _ = Nat.pow 10 places * 10 := by rw [hplaces]
      · rw [← List.singleton_append, Text.digitsValue_append, Text.digitsValue_digitChar hdigit,
          Nat.add_mul, hvalue, Nat.mul_assoc, hplaces]
        exact Nat.div_add_mod' _ _

/-! ## Positional texts -/

/-- The two runs of digits of a positional text, and their value. -/
theorem exists_digits_positional (places decimal : Nat) :
    ∃ whole fraction : List Char,
      (∀ c ∈ whole ++ fraction, c.isDigit) ∧ whole ++ fraction ≠ [] ∧
        ((positional places decimal = whole ∧ fraction = []) ∨
          positional places decimal = whole ++ '.' :: fraction) ∧
        Text.digitsValue (whole ++ fraction) * Nat.pow 10 places =
          decimal * Nat.pow 10 fraction.length := by
  have hlt : decimal % Nat.pow 10 places < Nat.pow 10 places := Nat.mod_lt _ (pow_ten_pos places)
  have hwhole : ∀ c ∈ Nat.toDigits 10 (decimal / Nat.pow 10 places), c.isDigit := fun _ hc =>
    Nat.isDigit_of_mem_toDigits (by decide) (by decide) hc
  refine ⟨Nat.toDigits 10 (decimal / Nat.pow 10 places),
    fractionDigits places (decimal % Nat.pow 10 places),
    List.forall_mem_append.mpr ⟨hwhole, isDigit_of_mem_fractionDigits hlt⟩,
    List.append_ne_nil_of_left_ne_nil Nat.toDigits_ne_nil _, ?_, ?_⟩
  · unfold positional
    dsimp only
    split
    · next hzero => exact .inl ⟨List.append_nil _, by rw [hzero, fractionDigits_zero]⟩
    · exact .inr rfl
  · obtain ⟨factor, hplaces, hvalue⟩ := exists_factor_fractionDigits hlt
    have hsplit := Nat.div_add_mod' decimal (Nat.pow 10 places)
    rw [Text.digitsValue_append, Text.digitsValue_toDigits]
    generalize fractionDigits places (decimal % Nat.pow 10 places) = fraction at *
    calc (decimal / Nat.pow 10 places * Nat.pow 10 fraction.length + Text.digitsValue fraction) *
          Nat.pow 10 places
        = (decimal / Nat.pow 10 places * Nat.pow 10 places + Text.digitsValue fraction * factor) *
          Nat.pow 10 fraction.length := by
          rw [← hplaces]
          ring
      _ = decimal * Nat.pow 10 fraction.length := by rw [hvalue, hsplit]

/-- A decimal is written as a literal. -/
theorem isLiteral_positional (places decimal : Nat) : IsLiteral (positional places decimal) := by
  obtain ⟨whole, fraction, hdigits, hne, htext, -⟩ := exists_digits_positional places decimal
  exact ⟨whole, fraction, hdigits, hne, htext⟩

/-- What is written is read, as an equal quotient. -/
theorem exists_readQuotient?_positional (places decimal : Nat) :
    ∃ num den, readQuotient? (positional places decimal) = some (num, den) ∧ 0 < den ∧
      num * Nat.pow 10 places = decimal * den := by
  obtain ⟨whole, fraction, hdigits, hne, htext, hvalue⟩ :=
    exists_digits_positional places decimal
  exact ⟨_, _, readQuotient?_of_digits hdigits hne htext, pow_ten_pos fraction.length, hvalue⟩

/-! ## The shortest decimal -/

namespace BinaryFormat

variable {format : BinaryFormat}

/-- Two and five to the scale are ten to the scale. -/
theorem pow_two_mul_pow_five (exponent : Nat) :
    Nat.pow 2 exponent * Nat.pow 5 exponent = Nat.pow 10 exponent :=
  (Nat.mul_pow 2 5 exponent).symm

/-- A value reads back as itself from all its digits. -/
theorem readsBack_exactDecimal (hprecision : 0 < format.precision) {bits : Nat}
    (hbits : bits < format.infinity) :
    format.readsBack bits (format.exactDecimal bits) = true := by
  have hquotient : format.exactDecimal bits * Nat.pow 2 format.scale =
      format.magnitude bits * Nat.pow 10 format.scale := by
    rw [exactDecimal, Nat.mul_assoc, Nat.mul_comm (Nat.pow 5 format.scale),
      pow_two_mul_pow_five]
  rw [readsBack, beq_iff_eq,
    format.nearest_congr (pow_ten_pos format.scale) (pow_two_pos format.scale) hquotient]
  exact nearest_magnitude hprecision hbits

theorem readsBack_of_onGrid? {bits step decimal : Nat}
    (h : format.onGrid? bits step = some decimal) : format.readsBack bits decimal = true := by
  unfold onGrid? at h
  dsimp only at h
  split at h
  · next hlow hhigh =>
    cases h
    split <;> assumption
  · next hlow hhigh =>
    cases h
    exact hlow
  · next hlow hhigh =>
    cases h
    exact hhigh
  · cases h

/-- The shortest decimal of a finite value reads back as the value. -/
theorem readsBack_shortestDecimal (hprecision : 0 < format.precision) {bits : Nat}
    (hbits : bits < format.infinity) :
    format.readsBack bits (format.shortestDecimal bits) = true := by
  unfold shortestDecimal
  dsimp only
  cases hfound : List.findSome? _ _ with
  | none => exact readsBack_exactDecimal hprecision hbits
  | some decimal =>
    obtain ⟨n, -, hgrid⟩ := List.exists_of_findSome?_eq_some hfound
    exact readsBack_of_onGrid? hgrid

/-- The positional text of a finite value is read as its encoding. -/
theorem read?_positional (hprecision : 0 < format.precision) {bits : Nat}
    (hbits : bits < format.infinity) :
    format.read? (positional format.scale (format.shortestDecimal bits)) = some bits := by
  obtain ⟨num, den, hread, hden, hquotient⟩ :=
    exists_readQuotient?_positional format.scale (format.shortestDecimal bits)
  have hback := readsBack_shortestDecimal hprecision hbits
  rw [readsBack, beq_iff_eq] at hback
  rw [BinaryFormat.read?, hread, Option.map_some, Option.some.injEq]
  exact (format.nearest_congr hden (pow_ten_pos format.scale) hquotient).trans hback

end BinaryFormat

end InfixArithmetic
