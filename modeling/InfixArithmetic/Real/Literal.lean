/-
  Reading literals into the two binary formats.

  A literal's digits, the point left out, are the numerator; the digits after the point say which
  power of ten is the denominator. The quotient is exact whatever the number of digits, so it is
  rounded only once.
-/
import InfixArithmetic.Arithmetic
import InfixArithmetic.Text.Numeral
import InfixArithmetic.Real.BinaryFormat

namespace InfixArithmetic

/-- Numerator and denominator of the digits before and after a point; there must be one. -/
def quotient? (whole fraction : List Char) : Option (Nat × Nat) :=
  let digits := whole ++ fraction
  if digits ≠ [] ∧ digits.all Char.isDigit then
    some (Text.digitsValue digits, Nat.pow 10 fraction.length)
  else
    none

/-- Numerator and denominator of a literal, or nothing for a text that is none. -/
def readQuotient? (text : List Char) : Option (Nat × Nat) :=
  match text.dropWhile Char.isDigit with
  | [] => quotient? text []
  | '.' :: fraction => quotient? (text.takeWhile Char.isDigit) fraction
  | _ => none

/-- The encoding of a literal in a format. -/
def BinaryFormat.read? (format : BinaryFormat) (text : List Char) : Option Nat :=
  (readQuotient? text).map fun (num, den) => format.nearest num den

instance : Arithmetic Float where
  readLiteral? text :=
    (BinaryFormat.binary64.read? text).map fun bits => Float.ofBits bits.toUInt64

instance : Arithmetic Float32 where
  readLiteral? text :=
    (BinaryFormat.binary32.read? text).map fun bits => Float32.ofBits bits.toUInt32

/-! ## Every literal is read -/

theorem quotient?_of_digits {whole fraction : List Char} (hd : ∀ c ∈ whole ++ fraction, c.isDigit)
    (hne : whole ++ fraction ≠ []) :
    quotient? whole fraction =
      some (Text.digitsValue (whole ++ fraction), Nat.pow 10 fraction.length) :=
  if_pos ⟨hne, List.all_eq_true.2 hd⟩

theorem readQuotient?_digits {whole : List Char} (hd : ∀ c ∈ whole, c.isDigit) :
    readQuotient? whole = quotient? whole [] := by
  have h : whole.dropWhile Char.isDigit = [] := by
    rw [← List.append_nil whole, List.dropWhile_append_of_pos hd]
    rfl
  simp only [readQuotient?, h]

theorem readQuotient?_point {whole : List Char} (hd : ∀ c ∈ whole, c.isDigit)
    (fraction : List Char) :
    readQuotient? (whole ++ '.' :: fraction) = quotient? whole fraction := by
  have h₁ : (whole ++ '.' :: fraction).dropWhile Char.isDigit = '.' :: fraction := by
    rw [List.dropWhile_append_of_pos hd]
    rfl
  have h₂ : (whole ++ '.' :: fraction).takeWhile Char.isDigit = whole := by
    rw [List.takeWhile_append_of_pos hd]
    exact List.append_nil whole
  simp only [readQuotient?, h₁, h₂]

/-- A literal is read as the number of its digits over the power of ten of its places. -/
theorem readQuotient?_of_digits {text whole fraction : List Char}
    (hd : ∀ c ∈ whole ++ fraction, c.isDigit) (hne : whole ++ fraction ≠ [])
    (htext : (text = whole ∧ fraction = []) ∨ text = whole ++ '.' :: fraction) :
    readQuotient? text =
      some (Text.digitsValue (whole ++ fraction), Nat.pow 10 fraction.length) := by
  obtain ⟨rfl, rfl⟩ | rfl := htext
  · rw [readQuotient?_digits (by simpa using hd), quotient?_of_digits hd hne]
  · rw [readQuotient?_point (fun c hc => hd c (List.mem_append_left _ hc)),
      quotient?_of_digits hd hne]

theorem isSome_readQuotient? {text : List Char} (h : IsLiteral text) :
    (readQuotient? text).isSome := by
  obtain ⟨whole, fraction, hd, hne, htext⟩ := h
  rw [readQuotient?_of_digits hd hne htext]
  rfl

theorem BinaryFormat.isSome_read? (format : BinaryFormat) {text : List Char} (h : IsLiteral text) :
    (format.read? text).isSome := by
  rw [BinaryFormat.read?, Option.isSome_map]
  exact isSome_readQuotient? h

instance : ReadsLiterals Float where
  isSome_readLiteral? h :=
    Option.isSome_map.trans (BinaryFormat.binary64.isSome_read? h)

instance : ReadsLiterals Float32 where
  isSome_readLiteral? h :=
    Option.isSome_map.trans (BinaryFormat.binary32.isSome_read? h)

end InfixArithmetic
