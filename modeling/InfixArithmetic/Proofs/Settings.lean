/-
  The configuration of an environment, field by field.

  Each field is what its own variable says, if that can be read, and the default otherwise
  (`Config.fst_ofEnvironment`). A numeral is read as it stands: it has no blanks to trim.
-/
import InfixArithmetic.Environment
import Mathlib.Data.List.TakeWhile

namespace InfixArithmetic

/-! ## One variable -/

/-- What is read of the value of a variable: nothing if it is unset or no text, and no blanks at its
ends. -/
def readVariable? {α : Type} (read? : List Char → Option α) (value : Option Text.Bytes) :
    Option α :=
  (value.bind Text.decode?).bind fun text => read? (Text.trimBlanks text.toList)

theorem readVariable?_encode {α : Type} (read? : List Char → Option α) (text : String) :
    readVariable? read? (some (Text.encode text)) = read? (Text.trimBlanks text.toList) := by
  unfold readVariable?
  rw [Option.bind_some, Text.decode?_encode, Option.bind_some]

/-- A variable sets its own field, to what is read of it. -/
theorem Config.fst_overlay (config : Config) (setting : Setting) (value : Option Text.Bytes) :
    (config.overlay setting value).1 =
      match setting with
      | .maxInputLen => { config with
          maxInputLen := (readVariable? Text.readLength? value).getD config.maxInputLen }
      | .decimals => { config with
          decimals := (readVariable? readFlag? value).getD config.decimals }
      | .unaryMinus => { config with
          unaryMinus := (readVariable? readFlag? value).getD config.unaryMinus } := by
  unfold overlay readVariable?
  cases value.bind Text.decode? with
  | none => cases setting <;> rfl
  | some text =>
    unfold set?
    simp only [Option.bind_some]
    generalize Text.trimBlanks text.toList = cs
    cases setting with
    | maxInputLen => cases Text.readLength? cs <;> rfl
    | decimals => cases readFlag? cs <;> rfl
    | unaryMinus => cases readFlag? cs <;> rfl

/-! ## All variables -/

theorem Config.fst_ofEnvironment (environment : Environment) :
    (ofEnvironment environment).1 =
      { maxInputLen := (readVariable? Text.readLength? (environment .maxInputLen)).getD 4096
        decimals := (readVariable? readFlag? (environment .decimals)).getD true
        unaryMinus := (readVariable? readFlag? (environment .unaryMinus)).getD true } := by
  unfold ofEnvironment Setting.all
  simp only [List.foldl_cons, List.foldl_nil, fst_overlay]

/-! ## Blanks around a value -/

theorem Text.trimBlanks_of_forall {cs : List Char} (h : ∀ c ∈ cs, isBlank c = false) :
    trimBlanks cs = cs := by
  have hdrop : ∀ ds : List Char, (∀ c ∈ ds, isBlank c = false) → ds.dropWhile isBlank = ds := by
    intro ds hds
    rw [List.dropWhile_eq_self_iff]
    intro hpos
    rw [hds _ (List.getElem_mem hpos)]
    exact Bool.false_ne_true
  unfold trimBlanks
  rw [hdrop cs h, hdrop cs.reverse fun c hc => h c (List.mem_reverse.mp hc), List.reverse_reverse]

theorem Text.isBlank_eq_false_of_readDigits? {cs : List Char} (h : (readDigits? cs).isSome) :
    ∀ c ∈ cs, isBlank c = false := by
  intro c hc
  unfold readDigits? at h
  split at h
  · rename_i hboth
    exact isBlank_eq_false_of_isDigit (List.all_eq_true.mp hboth.2 c hc)
  · cases h

/-- The characters of a numeral are digits, but for a plus sign. -/
theorem Text.isBlank_eq_false_of_readLength? {cs : List Char} {n : Nat}
    (h : readLength? cs = some n) : ∀ c ∈ cs, isBlank c = false := by
  have hnumeral : (readNumeral? cs).isSome :=
    Option.isSome_of_mem (Option.filter_eq_some_iff.mp h).1
  unfold readNumeral? at hnumeral
  split at hnumeral
  · exact List.forall_mem_cons.mpr ⟨rfl, isBlank_eq_false_of_readDigits? hnumeral⟩
  · exact isBlank_eq_false_of_readDigits? hnumeral

theorem readVariable?_encode_of_readLength? {numeral : String} {n : Nat}
    (h : Text.readLength? numeral.toList = some n) :
    readVariable? Text.readLength? (some (Text.encode numeral)) = some n := by
  rw [readVariable?_encode, Text.trimBlanks_of_forall (Text.isBlank_eq_false_of_readLength? h), h]

end InfixArithmetic
