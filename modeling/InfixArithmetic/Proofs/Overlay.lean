/-
  What the environment makes of the default configuration, and what is logged about it.

  Each variable is on its own. It sets its field to what its value says, or leaves the default; and
  one line warns of a value that says nothing (`IsOverlaid`). What a value says is put without the
  reading functions: a length is digits behind at most one plus sign (`IsLength`), a truth value is
  one of four spellings (`IsSpelling`). A variable follows its value as soon as its reading function
  agrees with what is said (`isOverlaid_readVariable?`).
-/
import InfixArithmetic.Proofs.Settings

namespace InfixArithmetic

/-! ## What a value says -/

/-- Whether a word is a length: digits, with or without one plus sign before them, whose value fits
a 64-bit word. -/
def IsLength (word : List Char) (n : Nat) : Prop :=
  ∃ sign digits, word = sign ++ digits ∧ (sign = [] ∨ sign = ['+']) ∧ digits ≠ [] ∧
    (∀ c ∈ digits, c.isDigit) ∧ n = Nat.ofDigitChars 10 digits 0 ∧ n ≤ 18446744073709551615

/-- Whether a word spells a truth value, in upper or lower case. -/
def IsSpelling (word : List Char) (b : Bool) : Prop :=
  String.ofList (word.map Char.toLower) ∈
    if b then ["1", "true", "yes", "on"] else ["0", "false", "no", "off"]

theorem Text.readDigits?_eq_some_iff {cs : List Char} {n : Nat} :
    readDigits? cs = some n ↔
      cs ≠ [] ∧ (∀ c ∈ cs, c.isDigit) ∧ n = Nat.ofDigitChars 10 cs 0 := by
  rw [readDigits?, Option.ite_none_right_eq_some, List.all_eq_true, Option.some.injEq, and_assoc]
  exact and_congr_right fun _ => and_congr_right fun _ => eq_comm

/-- A plus sign is no digit, so a numeral has its sign in one way only. -/
theorem Text.readNumeral?_eq_some_iff {cs : List Char} {n : Nat} :
    readNumeral? cs = some n ↔
      ∃ sign digits, cs = sign ++ digits ∧ (sign = [] ∨ sign = ['+']) ∧
        readDigits? digits = some n := by
  constructor
  · intro h
    unfold readNumeral? at h
    split at h
    · exact ⟨['+'], _, rfl, .inr rfl, h⟩
    · exact ⟨[], cs, rfl, .inl rfl, h⟩
  · rintro ⟨sign, digits, rfl, rfl | rfl, h⟩
    · rw [List.nil_append]
      unfold readNumeral?
      split
      · obtain ⟨-, hdigits, -⟩ := readDigits?_eq_some_iff.mp h
        exact absurd (hdigits '+' List.mem_cons_self) (by decide)
      · exact h
    · exact h

theorem Text.readLength?_eq_some_iff (word : List Char) (n : Nat) :
    readLength? word = some n ↔ IsLength word n := by
  have hmax : maxLength = 18446744073709551615 := by decide
  rw [readLength?, Option.filter_eq_some_iff, readNumeral?_eq_some_iff, decide_eq_true_eq, hmax]
  constructor
  · rintro ⟨⟨sign, digits, hword, hsign, hread⟩, hle⟩
    obtain ⟨hne, hdigits, hvalue⟩ := readDigits?_eq_some_iff.mp hread
    exact ⟨sign, digits, hword, hsign, hne, hdigits, hvalue, hle⟩
  · rintro ⟨sign, digits, hword, hsign, hne, hdigits, hvalue, hle⟩
    exact ⟨⟨sign, digits, hword, hsign, readDigits?_eq_some_iff.mpr ⟨hne, hdigits, hvalue⟩⟩, hle⟩

theorem readFlag?_eq_some_iff (word : List Char) (b : Bool) :
    readFlag? word = some b ↔ IsSpelling word b := by
  unfold readFlag? IsSpelling
  generalize String.ofList (word.map Char.toLower) = spelling
  dsimp only
  by_cases htrue : spelling ∈ ["1", "true", "yes", "on"]
  · -- no word spells both truth values
    have hfalse : spelling ∉ ["0", "false", "no", "off"] := by
      have hapart : ["1", "true", "yes", "on"].all (· ∉ ["0", "false", "no", "off"]) = true := by
        decide
      exact of_decide_eq_true (List.all_eq_true.mp hapart spelling htrue)
    cases b with
    | true => simp [htrue]
    | false => simp [htrue, hfalse]
  · by_cases hfalse : spelling ∈ ["0", "false", "no", "off"]
    · cases b <;> simp [htrue, hfalse]
    · cases b <;> simp [htrue, hfalse]

/-! ## One variable -/

/-- What one variable does to its field and to the log: the field is what the value says, without
the blanks around it, and the default if it says nothing or is not there; one line quotes a value
that says nothing, and else there is none. -/
structure IsOverlaid {β : Type} (Says : List Char → β → Prop) (value : Option String)
    (default field : β) (before after : String) (lines : List String) : Prop where
  field_eq_of_says : ∀ text b, value = some text → Says (Text.trimBlanks text.toList) b → field = b
  field_eq_default : (∀ text b, value = some text → ¬Says (Text.trimBlanks text.toList) b) →
    field = default
  lines_eq_quotation : ∀ text, value = some text →
    (∀ b, ¬Says (Text.trimBlanks text.toList) b) →
      lines = [before ++ Text.quoteString text ++ after]
  lines_eq_nil : (∀ text, value = some text → ∃ b, Says (Text.trimBlanks text.toList) b) →
    lines = []

/-- The warnings about one variable. -/
def warningsOf {β : Type} (read? : List Char → Option β) (setting : Setting)
    (value : Option Text.Bytes) : List Event :=
  match value.bind Text.decode? with
  | none => []
  | some text =>
    if (read? (Text.trimBlanks text.toList)).isSome then [] else [.ignored setting text]

theorem warningsOf_encode {β : Type} (read? : List Char → Option β) (setting : Setting)
    (text : String) : warningsOf read? setting (some (Text.encode text)) =
      if (read? (Text.trimBlanks text.toList)).isSome then [] else [.ignored setting text] := by
  unfold warningsOf
  rw [Option.bind_some, Text.decode?_encode]

theorem Config.snd_overlay (config : Config) (setting : Setting) (value : Option Text.Bytes) :
    (config.overlay setting value).2 =
      match setting with
      | .maxInputLen => warningsOf Text.readLength? .maxInputLen value
      | .decimals => warningsOf readFlag? .decimals value
      | .unaryMinus => warningsOf readFlag? .unaryMinus value := by
  unfold overlay warningsOf
  cases value.bind Text.decode? with
  | none => cases setting <;> rfl
  | some text =>
    unfold set?
    dsimp only
    generalize Text.trimBlanks text.toList = cs
    cases setting with
    | maxInputLen => cases Text.readLength? cs <;> rfl
    | decimals => cases readFlag? cs <;> rfl
    | unaryMinus => cases readFlag? cs <;> rfl

theorem Config.snd_ofEnvironment (environment : Environment) :
    (ofEnvironment environment).2 =
      warningsOf Text.readLength? .maxInputLen (environment .maxInputLen) ++
        warningsOf readFlag? .decimals (environment .decimals) ++
          warningsOf readFlag? .unaryMinus (environment .unaryMinus) := by
  unfold ofEnvironment Setting.all
  simp only [List.foldl_cons, List.foldl_nil, snd_overlay, List.nil_append]

/-- A variable does what its value says, if it is read by what is said. -/
theorem isOverlaid_readVariable? {β : Type} {read? : List Char → Option β}
    {Says : List Char → β → Prop} (hread : ∀ word b, read? word = some b ↔ Says word b)
    (setting : Setting) (value : Option String) (default : β) :
    IsOverlaid Says value default
      ((readVariable? read? (value.map Text.encode)).getD default)
      ("WARN Ignoring " ++ setting.variable ++ "=") (": not " ++ setting.expected)
      ((warningsOf read? setting (value.map Text.encode)).map Event.line) := by
  cases value with
  | none => exact ⟨fun _ _ h => (nomatch h), fun _ => rfl, fun _ h => (nomatch h), fun _ => rfl⟩
  | some text =>
    rw [Option.map_some, readVariable?_encode, warningsOf_encode]
    cases hword : read? (Text.trimBlanks text.toList) with
    | some b =>
      have hsays := (hread _ b).mp hword
      refine ⟨?_, fun h => absurd hsays (h text b rfl), ?_, fun _ => rfl⟩
      · intro _ b' htext hb'
        cases htext
        rw [(hread _ b').mpr hb'] at hword
        exact (Option.some.inj hword).symm
      · intro _ htext hnone
        cases htext
        exact absurd hsays (hnone b)
    | none =>
      have hnot : ∀ b, ¬Says (Text.trimBlanks text.toList) b := by
        intro b hb
        rw [(hread _ b).mpr hb] at hword
        cases hword
      refine ⟨?_, fun _ => rfl, ?_, ?_⟩
      · intro _ b htext hb
        cases htext
        exact absurd hb (hnot b)
      · intro _ htext _
        cases htext
        exact congrArg (fun line => [line]) (Event.line_ignored setting text)
      · intro h
        obtain ⟨b, hb⟩ := h text rfl
        exact absurd hb (hnot b)

/-! ## All variables -/

/-- The configuration and the warnings of variables that are set to texts. -/
def Config.ofTexts (values : Setting → Option String) : Config × List Event :=
  ofEnvironment fun setting => (values setting).map Text.encode

/-- Each variable sets its own field to what its value says, and leaves the default if that is
nothing; and for each value that says nothing there is one warning, in the order of the variables,
and nothing else is logged. No field depends on another variable than its own. -/
theorem ofTexts_exact (values : Setting → Option String) :
    (∃ lines₁ lines₂ lines₃,
        (Config.ofTexts values).2.map Event.line = lines₁ ++ lines₂ ++ lines₃ ∧
          IsOverlaid IsLength (values .maxInputLen) 4096 (Config.ofTexts values).1.maxInputLen
            "WARN Ignoring INFIX_MAX_INPUT_LEN=" ": not an integer" lines₁ ∧
          IsOverlaid IsSpelling (values .decimals) true (Config.ofTexts values).1.decimals
            "WARN Ignoring INFIX_DECIMALS=" ": not a boolean" lines₂ ∧
          IsOverlaid IsSpelling (values .unaryMinus) true (Config.ofTexts values).1.unaryMinus
            "WARN Ignoring INFIX_UNARY_MINUS=" ": not a boolean" lines₃) ∧
      ∀ values' : Setting → Option String,
        (values' .maxInputLen = values .maxInputLen →
            (Config.ofTexts values').1.maxInputLen = (Config.ofTexts values).1.maxInputLen) ∧
          (values' .decimals = values .decimals →
            (Config.ofTexts values').1.decimals = (Config.ofTexts values).1.decimals) ∧
          (values' .unaryMinus = values .unaryMinus →
            (Config.ofTexts values').1.unaryMinus = (Config.ofTexts values).1.unaryMinus) := by
  have hlength := isOverlaid_readVariable? Text.readLength?_eq_some_iff .maxInputLen
    (values .maxInputLen) 4096
  have hdecimals := isOverlaid_readVariable? readFlag?_eq_some_iff .decimals
    (values .decimals) true
  have hminus := isOverlaid_readVariable? readFlag?_eq_some_iff .unaryMinus
    (values .unaryMinus) true
  have hlengthStart : "WARN Ignoring " ++ Setting.maxInputLen.variable ++ "=" =
      "WARN Ignoring INFIX_MAX_INPUT_LEN=" := by decide
  have hdecimalsStart : "WARN Ignoring " ++ Setting.decimals.variable ++ "=" =
      "WARN Ignoring INFIX_DECIMALS=" := by decide
  have hminusStart : "WARN Ignoring " ++ Setting.unaryMinus.variable ++ "=" =
      "WARN Ignoring INFIX_UNARY_MINUS=" := by decide
  have hinteger : ": not " ++ Setting.maxInputLen.expected = ": not an integer" := by decide
  have hboolean : ": not " ++ Setting.decimals.expected = ": not a boolean" := by decide
  have hboolean' : ": not " ++ Setting.unaryMinus.expected = ": not a boolean" := by decide
  rw [hlengthStart, hinteger] at hlength
  rw [hdecimalsStart, hboolean] at hdecimals
  rw [hminusStart, hboolean'] at hminus
  unfold Config.ofTexts
  simp only [Config.fst_ofEnvironment, Config.snd_ofEnvironment, List.map_append]
  refine ⟨⟨_, _, _, rfl, hlength, hdecimals, hminus⟩, fun values' => ⟨?_, ?_, ?_⟩⟩
  · intro h
    rw [h]
  · intro h
    rw [h]
  · intro h
    rw [h]

/-- The largest length, with a plus sign, zeros and an ideographic space before it; a truth value in
mixed case between blanks; and a word that is quoted, for it spells no truth value. One more
than the largest length is no length. -/
theorem ofTexts_exact_largest_length :
    let values : Setting → Option String := fun setting =>
      if setting = .maxInputLen then some "\u3000+00018446744073709551615\n"
      else if setting = .decimals then some " oFF\t"
      else some "\"no"
    IsLength (Text.trimBlanks "\u3000+00018446744073709551615\n".toList) 18446744073709551615 ∧
      (Config.ofTexts values).1.maxInputLen = 18446744073709551615 ∧
      IsSpelling (Text.trimBlanks " oFF\t".toList) false ∧
      (Config.ofTexts values).1.decimals = false ∧
      (∀ b, ¬IsSpelling (Text.trimBlanks "\"no".toList) b) ∧
      (Config.ofTexts values).1.unaryMinus = true ∧
      (Config.ofTexts values).2.map Event.line =
        ["WARN Ignoring INFIX_UNARY_MINUS=\"\\\"no\": not a boolean"] ∧
      ∀ n, ¬IsLength "18446744073709551616".toList n := by
  intro values
  have hlength : IsLength (Text.trimBlanks "\u3000+00018446744073709551615\n".toList)
      18446744073709551615 :=
    ⟨['+'], "00018446744073709551615".toList, by decide, .inr rfl, by decide,
      List.all_eq_true.mp (by decide), by decide, Nat.le_refl _⟩
  have hdecimals : IsSpelling (Text.trimBlanks " oFF\t".toList) false := by
    unfold IsSpelling
    decide
  have hminus : ∀ b, ¬IsSpelling (Text.trimBlanks "\"no".toList) b := by
    intro b
    unfold IsSpelling
    cases b <;> decide
  obtain ⟨⟨lines₁, lines₂, lines₃, hlog, hover₁, hover₂, hover₃⟩, -⟩ := ofTexts_exact values
  have hlines₁ : lines₁ = [] := hover₁.lines_eq_nil fun text htext => by
    cases htext
    exact ⟨_, hlength⟩
  have hlines₂ : lines₂ = [] := hover₂.lines_eq_nil fun text htext => by
    cases htext
    exact ⟨_, hdecimals⟩
  have hquoted : "WARN Ignoring INFIX_UNARY_MINUS=" ++ Text.quoteString "\"no" ++
      ": not a boolean" = "WARN Ignoring INFIX_UNARY_MINUS=\"\\\"no\": not a boolean" := by
    decide +kernel
  have hlarger : ∀ n, ¬IsLength "18446744073709551616".toList n := by
    intro n h
    have hread : Text.readLength? "18446744073709551616".toList = none := by decide
    rw [(Text.readLength?_eq_some_iff _ n).mpr h] at hread
    cases hread
  refine ⟨hlength, hover₁.field_eq_of_says _ _ rfl hlength, hdecimals,
    hover₂.field_eq_of_says _ _ rfl hdecimals, hminus, ?_, ?_, hlarger⟩
  · refine hover₃.field_eq_default fun text b htext => ?_
    cases htext
    exact hminus b
  · rw [hlog, hlines₁, hlines₂, hover₃.lines_eq_quotation _ rfl hminus, hquoted]
    rfl

end InfixArithmetic
