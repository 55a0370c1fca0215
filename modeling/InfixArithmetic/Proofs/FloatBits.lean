/-
  The bits of a finite floating-point number.

  In the logical model a `Float` is its 64 bits: sign, exponent and mantissa. The bits below the
  sign are an encoding of the format, below that of infinity (`unsigned_lt_infinity`), and negation
  turns the sign over and nothing else (`neg_unpack_packComponents`). So a number without a sign bit
  is the number of these bits, and one with a sign bit is the opposite of that.
-/
import InfixArithmetic.Real.Positional
import Mathlib

namespace InfixArithmetic

open Float.Model Float.Model.UnpackedFloat

/-! ## Sign, exponent and mantissa -/

theorem toNat_append_bits {m n : Nat} (high : BitVec m) (low : BitVec n) :
    (high ++ low).toNat = high.toNat * 2 ^ n + low.toNat := by
  rw [BitVec.toNat_append, ← Nat.shiftLeft_add_eq_or_of_lt low.isLt, Nat.shiftLeft_eq]

theorem toNat_packComponents (sign : Sign) (exponent : BitVec 11) (mantissa : BitVec 52) :
    (packComponents .binary64 sign exponent mantissa).toNat =
      sign.toBitVec.toNat * 2 ^ 63 + exponent.toNat * 2 ^ 52 + mantissa.toNat := by
  unfold packComponents
  rw [toNat_append_bits, toNat_append_bits, Nat.add_mul, Nat.mul_assoc, ← Nat.pow_add]

/-- Only the exponent of all ones leaves room for what is not valid. -/
theorem valid_packComponents (sign : Sign) {exponent : BitVec 11} (mantissa : BitVec 52)
    (hne : exponent ≠ -1#11) :
    Format.binary64.Valid (packComponents .binary64 sign exponent mantissa) :=
  ⟨fun hexponent _ => absurd (unpackExponent_packComponents.symm.trans hexponent) hne⟩

theorem neg_unpack_packComponents (sign : Sign) (exponent : BitVec 11) (mantissa : BitVec 52) :
    (UnpackedFloat.unpack .binary64 (packComponents .binary64 sign exponent mantissa)).neg =
      UnpackedFloat.unpack .binary64 (packComponents .binary64 (-sign) exponent mantissa) := by
  unfold UnpackedFloat.unpack
  simp only [unpackMantissa_packComponents, unpackExponent_packComponents,
    unpackSign_packComponents, Sign.ofBitVec_toBitVec]
  split_ifs <;> rfl

/-! ## Finite numbers -/

section

open BinaryFormat (binary64)

variable {x : Float}

/-- Infinities and what is not a number have the exponent of all ones. -/
theorem exponent_ne_of_isFinite (hfinite : x.isFinite = true) :
    @unpackExponent .binary64 x.toBits.toBitVec ≠ -1#11 := by
  intro hexponent
  change (UnpackedFloat.unpack .binary64 x.toBits.toBitVec).isFinite = true at hfinite
  unfold UnpackedFloat.unpack at hfinite
  dsimp only at hfinite
  rw [if_pos hexponent] at hfinite
  split at hfinite <;> cases hfinite

theorem exists_components_of_isFinite (hfinite : x.isFinite = true) :
    ∃ sign exponent mantissa, exponent ≠ -1#11 ∧
      x.toBits.toBitVec = packComponents .binary64 sign exponent mantissa :=
  ⟨_, _, _, exponent_ne_of_isFinite hfinite,
    (@packComponents_unpackSign_unpackExponent_unpackMantissa .binary64 _).symm⟩

section

variable {sign : Sign} {exponent : BitVec 11} {mantissa : BitVec 52}

theorem toNat_toBits (hbits : x.toBits.toBitVec = packComponents .binary64 sign exponent mantissa) :
    x.toBits.toNat =
      sign.toBitVec.toNat * 2 ^ 63 + exponent.toNat * 2 ^ 52 + mantissa.toNat := by
  rw [← UInt64.toNat_toBitVec, hbits, toNat_packComponents]

/-- The bits below the sign are exponent and mantissa. -/
theorem toNat_mod_signBit
    (hbits : x.toBits.toBitVec = packComponents .binary64 sign exponent mantissa) :
    x.toBits.toNat % binary64.signBit = exponent.toNat * 2 ^ 52 + mantissa.toNat := by
  have hsignBit : binary64.signBit = 0x8000000000000000 := rfl
  have hexponent : exponent.toNat < 2 ^ 11 := exponent.isLt
  have hmantissa : mantissa.toNat < 2 ^ 52 := mantissa.isLt
  rw [toNat_toBits hbits, hsignBit]
  omega

theorem toBitVec_unsigned
    (hbits : x.toBits.toBitVec = packComponents .binary64 sign exponent mantissa) :
    (x.toBits.toNat % binary64.signBit).toUInt64.toBitVec =
      packComponents .binary64 .positive exponent mantissa := by
  have hpositive : Sign.positive.toBitVec.toNat = 0 := rfl
  have hexponent : exponent.toNat < 2 ^ 11 := exponent.isLt
  have hmantissa : mantissa.toNat < 2 ^ 52 := mantissa.isLt
  have hlt : exponent.toNat * 2 ^ 52 + mantissa.toNat < UInt64.size := by
    rw [UInt64.size]
    omega
  apply BitVec.eq_of_toNat_eq
  rw [toNat_mod_signBit hbits, toNat_packComponents, hpositive, Nat.zero_mul, Nat.zero_add]
  exact UInt64.toNat_ofNat_of_lt hlt

theorem sign_eq_negative
    (hbits : x.toBits.toBitVec = packComponents .binary64 sign exponent mantissa)
    (hsign : ¬x.toBits.toNat < binary64.signBit) : sign = .negative := by
  cases sign with
  | positive =>
    rw [← Nat.mod_eq_iff_lt (by decide), toNat_mod_signBit hbits, toNat_toBits hbits] at hsign
    have hpositive : Sign.positive.toBitVec.toNat = 0 := rfl
    omega
  | negative => rfl

end

/-- The bits of a finite number below its sign encode a finite value. -/
theorem unsigned_lt_infinity (hfinite : x.isFinite = true) :
    x.toBits.toNat % binary64.signBit < binary64.infinity := by
  obtain ⟨sign, exponent, mantissa, hne, hbits⟩ := exists_components_of_isFinite hfinite
  have hexponent : exponent.toNat < 2047 := BitVec.lt_allOnes_iff.mpr hne
  have hmantissa : mantissa.toNat < 2 ^ 52 := mantissa.isLt
  have hinfinity : binary64.infinity = 0x7ff0000000000000 := rfl
  rw [toNat_mod_signBit hbits, hinfinity]
  omega

/-- A number without a sign bit is the number of its bits. -/
theorem ofBits_unsigned (hsign : x.toBits.toNat < binary64.signBit) :
    Float.ofBits (x.toBits.toNat % binary64.signBit).toUInt64 = x := by
  rw [Nat.mod_eq_of_lt hsign]
  exact (congrArg Float.ofBits UInt64.ofNat_toNat).trans x.ofBits_toBits

/-- A finite number with a sign bit is the opposite of the number of its other bits. -/
theorem neg_ofBits_unsigned (hfinite : x.isFinite = true)
    (hsign : ¬x.toBits.toNat < binary64.signBit) :
    -Float.ofBits (x.toBits.toNat % binary64.signBit).toUInt64 = x := by
  obtain ⟨sign, exponent, mantissa, hne, hbits⟩ := exists_components_of_isFinite hfinite
  obtain rfl := sign_eq_negative hbits hsign
  have hpositive := pack_unpack_of_valid (valid_packComponents .positive mantissa hne)
  have hnegative := pack_unpack_of_valid (valid_packComponents .negative mantissa hne)
  rw [← Float.toBits_inj, ← UInt64.toBitVec_inj, hbits, ← hnegative]
  change UnpackedFloat.pack .binary64 (UnpackedFloat.unpack .binary64 (UnpackedFloat.pack .binary64
    (UnpackedFloat.unpack .binary64 (Nat.toUInt64 _).toBitVec))).neg = _
  rw [toBitVec_unsigned hbits, hpositive, neg_unpack_packComponents]
  rfl

end

end InfixArithmetic
