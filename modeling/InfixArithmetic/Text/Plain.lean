/-
  Plain texts: texts without control characters.

  The 65 controls are U+0000 to U+001F and U+007F to U+009F, with the line feed and the carriage
  return among them. So a plain text stays on one line, wherever it is written.
-/
import Mathlib.Data.List.Basic

namespace InfixArithmetic.Text

/-- Whether a character is a control. -/
def isControl (c : Char) : Bool := c.toNat < 0x20 || (0x7f ≤ c.toNat && c.toNat ≤ 0x9f)

/-- Whether a text holds no control. -/
def isPlain (text : String) : Bool := text.toList.all fun c => !isControl c

/-! ## Parts of texts -/

theorem isPlain_append (front back : String) :
    isPlain (front ++ back) = (isPlain front && isPlain back) := by
  simp [isPlain]

theorem isPlain_ofList (cs : List Char) :
    isPlain (String.ofList cs) = cs.all fun c => !isControl c := by
  simp [isPlain]

theorem isPlain_singleton (c : Char) : isPlain (String.singleton c) = !isControl c := by
  simp [isPlain]

theorem isPlain_join (texts : List String) : isPlain (String.join texts) = texts.all isPlain := by
  induction texts with
  | nil => rfl
  | cons text texts ih => rw [String.join_cons, isPlain_append, ih, List.all_cons]

theorem not_mem_of_isPlain {text : String} {c : Char} (h : isPlain text = true)
    (hc : isControl c = true) : c ∉ text.toList := by
  intro hmem
  have hnot := List.all_eq_true.mp h c hmem
  rw [hc] at hnot
  cases hnot

/-! ## Numerals -/

theorem isControl_digitChar (n : Nat) : isControl n.digitChar = false := by
  by_cases h : 16 ≤ n
  · rw [Nat.digitChar_eq_star.mpr h]
    rfl
  · have hdigits : ∀ n < 16, isControl n.digitChar = false := by decide
    exact hdigits n (by omega)

theorem isControl_of_mem_toDigits {base n : Nat} {c : Char} (hbase : 1 < base)
    (h : c ∈ Nat.toDigits base n) : isControl c = false := by
  induction n using Nat.strongRecOn with
  | ind n ih =>
    rw [Nat.toDigits_eq_if hbase] at h
    split at h
    · rw [List.mem_singleton.mp h]
      exact isControl_digitChar n
    · rename_i hle
      rcases List.mem_append.mp h with h | h
      · exact ih (n / base) (Nat.div_lt_self (by omega) hbase) h
      · rw [List.mem_singleton.mp h]
        exact isControl_digitChar (n % base)

theorem isPlain_ofList_toDigits {base : Nat} (hbase : 1 < base) (n : Nat) :
    isPlain (String.ofList (Nat.toDigits base n)) = true := by
  rw [isPlain_ofList, List.all_eq_true]
  intro c hc
  rw [isControl_of_mem_toDigits hbase hc]
  rfl

theorem isPlain_repr (n : Nat) : isPlain n.repr = true := by
  rw [Nat.repr_eq_ofList_toDigits]
  exact isPlain_ofList_toDigits (by decide) n

end InfixArithmetic.Text
