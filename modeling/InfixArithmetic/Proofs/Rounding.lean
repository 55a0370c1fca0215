/-
  Rounding into a binary format.

  Rounding looks at the quotient and not at the two numbers it is given as (`nearest_congr`), and it
  finds the encoding of every finite value of the format again (`nearest_magnitude`): below the
  precision nothing is cut off, and above it exactly the zero bits are that the exponent has added.
-/
import InfixArithmetic.Real.BinaryFormat
import Mathlib.Tactic.Ring

namespace InfixArithmetic

theorem pow_two_pos (exponent : Nat) : 0 < Nat.pow 2 exponent := Nat.two_pow_pos exponent

namespace BinaryFormat

/-! ## Quotients -/

theorem roundHalfEven_mul_right (num den : Nat) {k : Nat} (hk : 0 < k) :
    roundHalfEven (num * k) (den * k) = roundHalfEven num den := by
  unfold roundHalfEven
  have hhalf : ∀ r, den * k < 2 * (r * k) ↔ den < 2 * r := fun r => by
    rw [← Nat.mul_assoc]
    exact Nat.mul_lt_mul_right hk
  have htie : ∀ r, den * k = 2 * (r * k) ↔ den = 2 * r := fun r => by
    rw [← Nat.mul_assoc]
    exact Nat.mul_left_inj (Nat.pos_iff_ne_zero.mp hk)
  simp only [Nat.mul_div_mul_right num den hk, Nat.mul_mod_mul_right, hhalf, htie]

/-- A whole quotient stays as it is. -/
theorem roundHalfEven_mul_self (num : Nat) {den : Nat} (hden : 0 < den) :
    roundHalfEven (num * den) den = num := by
  unfold roundHalfEven
  simp only [Nat.mul_div_cancel num hden, Nat.mul_mod_left]
  rw [if_neg (by omega)]

variable (format : BinaryFormat)

theorem nearest_mul_right (num den : Nat) {k : Nat} (hk : 0 < k) :
    format.nearest (num * k) (den * k) = format.nearest num den := by
  have hexcess : format.excess (num * k) (den * k) = format.excess num den := by
    unfold excess
    rw [Nat.mul_right_comm num k, Nat.mul_div_mul_right _ den hk]
  unfold nearest
  simp only [hexcess]
  rw [Nat.mul_right_comm num k, Nat.mul_right_comm den k, roundHalfEven_mul_right _ _ hk]

/-- Equal quotients have the same nearest encoding. -/
theorem nearest_congr {num den num' den' : Nat} (hden : 0 < den) (hden' : 0 < den')
    (h : num * den' = num' * den) : format.nearest num den = format.nearest num' den' := by
  calc format.nearest num den
      = format.nearest (num * den') (den * den') := (format.nearest_mul_right num den hden').symm
    _ = format.nearest (num' * den) (den' * den) := by rw [h, Nat.mul_comm den]
    _ = format.nearest num' den' := format.nearest_mul_right num' den' hden

/-! ## Values of the format -/

variable {format}

/-- What is beyond the precision in a value of the format are the bits that its exponent adds. -/
theorem log2_magnitude (hprecision : 0 < format.precision) {significand shift : Nat}
    (hlow : Nat.pow 2 (format.precision - 1) ≤ significand)
    (hhigh : significand < Nat.pow 2 format.precision) :
    (significand * Nat.pow 2 shift).log2 + 1 - format.precision = shift := by
  obtain ⟨p, hp⟩ : ∃ p, format.precision = p + 1 := ⟨format.precision - 1, by omega⟩
  rw [hp] at hlow hhigh ⊢
  simp only [Nat.pow_eq, Nat.add_sub_cancel] at hlow hhigh ⊢
  have hpos : 0 < significand := Nat.lt_of_lt_of_le (Nat.two_pow_pos p) hlow
  have hlog : (significand * 2 ^ shift).log2 = p + shift := by
    rw [Nat.log2_eq_iff (Nat.mul_pos hpos (Nat.two_pow_pos shift)).ne', Nat.pow_add,
      Nat.add_right_comm, Nat.pow_add]
    exact ⟨Nat.mul_le_mul_right _ hlow, Nat.mul_lt_mul_of_pos_right hhigh (Nat.two_pow_pos shift)⟩
  omega

theorem excess_of_scaled (value : Nat) :
    format.excess value (Nat.pow 2 format.scale) = value.log2 + 1 - format.precision := by
  unfold excess
  rw [Nat.mul_div_cancel value (pow_two_pos format.scale)]

/-- A value below the precision is its own encoding. -/
theorem nearest_subnormal (hprecision : 0 < format.precision) (value : Nat)
    (hvalue : value < Nat.pow 2 format.precision) :
    format.nearest value (Nat.pow 2 format.scale) = min format.infinity value := by
  have hexcess : format.excess value (Nat.pow 2 format.scale) = 0 := by
    rw [excess_of_scaled, Nat.sub_eq_zero_iff_le]
    rcases Nat.eq_zero_or_pos value with rfl | hpos
    · rw [Nat.log2_zero]
      exact hprecision
    · exact (Nat.log2_lt hpos.ne').mpr hvalue
  unfold nearest
  rw [hexcess]
  dsimp only
  rw [Nat.zero_mul, Nat.zero_add, (rfl : Nat.pow 2 0 = 1), Nat.mul_one,
    roundHalfEven_mul_self _ (pow_two_pos format.scale)]

/-- A value of full precision has its exponent and its significand, added up, as encoding. -/
theorem nearest_normal (hprecision : 0 < format.precision) (significand shift : Nat)
    (hlow : Nat.pow 2 (format.precision - 1) ≤ significand)
    (hhigh : significand < Nat.pow 2 format.precision) :
    format.nearest (significand * Nat.pow 2 shift) (Nat.pow 2 format.scale) =
      min format.infinity (shift * Nat.pow 2 (format.precision - 1) + significand) := by
  unfold nearest
  rw [excess_of_scaled, log2_magnitude hprecision hlow hhigh]
  dsimp only
  rw [Nat.mul_assoc, Nat.mul_comm (Nat.pow 2 format.scale),
    roundHalfEven_mul_self _ (Nat.mul_pos (pow_two_pos shift) (pow_two_pos format.scale))]

/-- Every finite value has its own encoding as the nearest one. -/
theorem nearest_magnitude (hprecision : 0 < format.precision) {bits : Nat}
    (hbits : bits < format.infinity) :
    format.nearest (format.magnitude bits) (Nat.pow 2 format.scale) = bits := by
  have hpow : Nat.pow 2 format.precision = Nat.pow 2 (format.precision - 1) * 2 :=
    calc Nat.pow 2 format.precision
        = Nat.pow 2 (format.precision - 1 + 1) := by rw [Nat.sub_add_cancel hprecision]
      _ = Nat.pow 2 (format.precision - 1) * 2 := rfl
  have hsubnormal := nearest_subnormal hprecision
  have hnormal := nearest_normal hprecision
  have hsplit := Nat.div_add_mod' bits (Nat.pow 2 (format.precision - 1))
  have hfraction := Nat.mod_lt bits (pow_two_pos (format.precision - 1))
  unfold magnitude
  dsimp only
  rw [hpow] at hsubnormal hnormal
  generalize Nat.pow 2 (format.precision - 1) = hidden at *
  generalize bits % hidden = fraction at *
  cases hexponent : bits / hidden with
  | zero =>
    rw [if_pos rfl, hsubnormal fraction (by omega)]
    rw [hexponent] at hsplit
    omega
  | succ shift =>
    rw [if_neg (Nat.succ_ne_zero shift), Nat.add_sub_cancel,
      hnormal (hidden + fraction) shift (by omega) (by omega)]
    rw [hexponent, Nat.add_mul] at hsplit
    omega

-- one is found again; a tenth, which is no value of the format, is rounded up
example : binary64.nearest 1 1 = 0x3ff0000000000000 := by decide +kernel
example : binary64.nearest 1 10 = 0x3fb999999999999a := by decide +kernel

end BinaryFormat

end InfixArithmetic
