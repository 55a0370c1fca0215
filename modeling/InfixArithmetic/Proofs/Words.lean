/-
  What a word of a command line does, whatever the options so far and the words behind it.

  Where an option may stand, a word makes a choice, waits for the next word, ends the options or
  settles the matter (`Request.Turn`), and that does not depend on the options or on the words behind
  it. So options that are accepted alone are accepted in front of the separator too, and the words
  behind it are the expression, whatever they look like (`Request.ofWords_append_separator`). The
  words of a choice make the choice, in front of any words (`Request.after_words`).
-/
import InfixArithmetic.Calculator.Choice

namespace InfixArithmetic.Calculator

/-! ## Marks -/

namespace Mark

theorem ofLetters?_ne_separator (cs : List Char) : ofLetters? cs ≠ some separator := by
  unfold ofLetters?
  split
  · split
    · unfold ofLetter?
      split <;> exact nofun
    · exact nofun
  · exact nofun

/-- Only two hyphens are the separator. -/
theorem eq_of_ofWord_eq_separator {word : String} (h : ofWord word = separator) : word = "--" := by
  rw [ofWord] at h
  cases hletters : ofLetters? word.toList with
  | some mark =>
    rw [hletters] at h
    cases h
    exact absurd hletters (ofLetters?_ne_separator _)
  | none =>
    rw [hletters, Option.getD_none, ofName] at h
    split at h
    · assumption
    · exfalso
      revert h
      repeat' split
      all_goals exact nofun

theorem attachedValue?_append (name value : String) :
    attachedValue? name (name ++ "=" ++ value) = some value := by
  have hlist : (name ++ "=" ++ value).toList = (name.toList ++ ['=']) ++ value.toList := by
    rw [String.toList_append, String.toList_append]
    rfl
  unfold attachedValue?
  rw [hlist]
  dsimp only
  rw [if_pos (List.isPrefixOf_iff_prefix.mpr (List.prefix_append _ _)), List.drop_left,
    String.ofList_toList]

/-- The limit with its value in the same word is none of the other options. -/
theorem ofWord_maxInputLen_append (numeral : String) :
    ofWord ("--max-input-len=" ++ numeral) = maxInputLenIs numeral := by
  have hlist : ("--max-input-len=" ++ numeral).toList =
      "--max-input-len=".toList ++ numeral.toList := String.toList_append
  have hletters : ofLetters? ("--max-input-len=" ++ numeral).toList = none := by
    rw [hlist]
    rfl
  have hne : ∀ word : String, ¬"--max-input-len=".toList <+: word.toList →
      "--max-input-len=" ++ numeral ≠ word := by
    rintro word hnot rfl
    exact hnot (hlist ▸ List.prefix_append _ _)
  have hvalue : attachedValue? "--max-input-len" ("--max-input-len=" ++ numeral) = some numeral :=
    attachedValue?_append "--max-input-len" numeral
  rw [ofWord, hletters, Option.getD_none, ofName, if_neg (hne _ (by decide)),
    if_neg (hne _ (by decide)), if_neg (hne _ (by decide)), if_neg (hne _ (by decide)),
    if_neg (hne _ (by decide)), if_neg (hne _ (by decide)), hvalue]

end Mark

/-! ## One word -/

namespace Request

/-- The request after one more choice, if it can be made. -/
def choose (choice : Choice) (options : Options) (words : List String) : Request :=
  match choice.addTo? options with
  | none => misuse
  | some options => after options false words

theorem choose_of_eq_none {choice : Choice} {options : Options}
    (h : choice.addTo? options = none) (words : List String) :
    choose choice options words = misuse := by
  unfold choose
  rw [h]

theorem choose_of_eq_some {choice : Choice} {options options' : Options}
    (h : choice.addTo? options = some options') (words : List String) :
    choose choice options words = after options' false words := by
  unfold choose
  rw [h]

theorem exists_addTo?_of_choose {choice : Choice} {options : Options} {words : List String}
    (h : choose choice options words ≠ misuse) :
    ∃ options', choice.addTo? options = some options' := by
  cases hchoice : choice.addTo? options with
  | none => exact absurd (choose_of_eq_none hchoice words) h
  | some options' => exact ⟨options', rfl⟩

/-- What a word does, for any options before it and any words behind it: it makes a choice; or the
next word is the value of the limit; or it is the separator, or the first word of the expression; or
it settles the matter. -/
inductive Turn (awaitsLimit : Bool) (word : String) : Prop where
  | chooses (choice : Choice) :
      (∀ options words, after options awaitsLimit (word :: words) = choose choice options words) →
      (∀ words, optionDue awaitsLimit (word :: words) = optionDue false words) →
      Turn awaitsLimit word
  | awaits :
      (∀ options words, after options awaitsLimit (word :: words) = after options true words) →
      (∀ words, optionDue awaitsLimit (word :: words) = optionDue true words) →
      Turn awaitsLimit word
  | separates : word = "--" →
      (∀ options words, after options awaitsLimit (word :: words) = calculate options words) →
      (∀ words, optionDue awaitsLimit (word :: words) = false) → Turn awaitsLimit word
  | begins :
      (∀ options words,
        after options awaitsLimit (word :: words) = calculate options (word :: words)) →
      (∀ words, optionDue awaitsLimit (word :: words) = false) → Turn awaitsLimit word
  | settles (request : Request) : request = help ∨ request = version ∨ request = misuse →
      (∀ options words, after options awaitsLimit (word :: words) = request) →
      (∀ words, optionDue awaitsLimit (word :: words) = optionDue false words) →
      Turn awaitsLimit word

/-- What a word does where an option may stand is decided by its mark. -/
theorem after_of_ofWord {word : String} {mark : Mark} :
    Mark.ofWord word = mark → ∀ (options : Options) (words : List String),
      after options false (word :: words) =
        match mark with
        | .separator => calculate options words
        | .help => help
        | .version => version
        | .integersOnly => choose .integersOnly options words
        | .noUnaryMinus => choose .noUnaryMinus options words
        | .maxInputLen => after options true words
        | .maxInputLenIs value => choose (.maxInputLen value true) options words
        | .needlessValue => misuse
        | .expression => calculate options (word :: words) := by
  rintro rfl options words
  rfl

theorem optionDue_of_ofWord {word : String} {mark : Mark} :
    Mark.ofWord word = mark → ∀ words : List String,
      optionDue false (word :: words) =
        match mark with
        | .separator | .expression => false
        | .maxInputLen => optionDue true words
        | _ => optionDue false words := by
  rintro rfl words
  rfl

theorem turn_of_word (awaitsLimit : Bool) (word : String) : Turn awaitsLimit word := by
  cases awaitsLimit with
  | true =>
    -- the word is the value of the limit, even if it looks like an option
    exact .chooses (.maxInputLen word false) (fun _ _ => rfl) (fun _ => rfl)
  | false =>
    cases hmark : Mark.ofWord word with
    | separator =>
      exact .separates (Mark.eq_of_ofWord_eq_separator hmark) (after_of_ofWord hmark)
        (optionDue_of_ofWord hmark)
    | help => exact .settles help (.inl rfl) (after_of_ofWord hmark) (optionDue_of_ofWord hmark)
    | version =>
      exact .settles version (.inr (.inl rfl)) (after_of_ofWord hmark) (optionDue_of_ofWord hmark)
    | integersOnly =>
      exact .chooses .integersOnly (after_of_ofWord hmark) (optionDue_of_ofWord hmark)
    | noUnaryMinus =>
      exact .chooses .noUnaryMinus (after_of_ofWord hmark) (optionDue_of_ofWord hmark)
    | maxInputLen => exact .awaits (after_of_ofWord hmark) (optionDue_of_ofWord hmark)
    | maxInputLenIs value =>
      exact .chooses (.maxInputLen value true) (after_of_ofWord hmark) (optionDue_of_ofWord hmark)
    | needlessValue =>
      exact .settles misuse (.inr (.inr rfl)) (after_of_ofWord hmark) (optionDue_of_ofWord hmark)
    | expression => exact .begins (after_of_ofWord hmark) (optionDue_of_ofWord hmark)

/-! ## The separator -/

/-- Options that are accepted alone are accepted in front of the separator. -/
theorem after_append_separator {options options' : Options} {awaitsLimit : Bool}
    {front : List String} (h : after options awaitsLimit front = calculate options' [])
    (hseparator : "--" ∉ front) (words : List String) :
    after options awaitsLimit (front ++ "--" :: words) = calculate options' words := by
  induction front generalizing options awaitsLimit with
  | nil =>
    cases awaitsLimit with
    | true => cases h
    | false =>
      cases h
      rfl
  | cons word front ih =>
    have hfront : "--" ∉ front := fun hmem => hseparator (List.mem_cons_of_mem word hmem)
    rw [List.cons_append]
    cases turn_of_word awaitsLimit word with
    | chooses choice hafter =>
      rw [hafter] at h
      have haccepted : choose choice options front ≠ misuse := by
        intro hmisuse
        cases h.symm.trans hmisuse
      obtain ⟨options'', hchoice⟩ := exists_addTo?_of_choose haccepted
      rw [choose_of_eq_some hchoice] at h
      rw [hafter, choose_of_eq_some hchoice]
      exact ih h hfront
    | awaits hafter =>
      rw [hafter] at h
      rw [hafter]
      exact ih h hfront
    | separates hword => exact absurd (hword ▸ List.mem_cons_self) hseparator
    | begins hafter =>
      rw [hafter] at h
      cases h
    | settles request hsettled hafter =>
      rw [hafter] at h
      rcases hsettled with rfl | rfl | rfl <;> cases h

theorem ofWords_append_separator {options : Options} {front : List String}
    (h : ofWords front = calculate options []) (hseparator : "--" ∉ front) (words : List String) :
    ofWords (front ++ "--" :: words) = calculate options words :=
  after_append_separator h hseparator words

/-! ## The words of a choice -/

theorem after_words (choice : Choice) (options : Options) (back : List String) :
    after options false (choice.words ++ back) = choose choice options back := by
  cases choice with
  | integersOnly => rfl
  | noUnaryMinus => rfl
  | maxInputLen numeral joined =>
    cases joined with
    | false => rfl
    | true => exact after_of_ofWord (Mark.ofWord_maxInputLen_append numeral) options back

end Request

end InfixArithmetic.Calculator
