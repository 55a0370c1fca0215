/-
  An option of the command line and the variable of its field say the same.

  A choice writes one field that was free (`Choice.Adds`), so two choices can change places, and a
  choice can be taken out of a command line without a change to how the other words are read
  (`Request.Drops`). What it says can be said by a variable instead, whatever that was set to before
  (`configOf_eq_of_adds`).
-/
import InfixArithmetic.Calculator.Run
import InfixArithmetic.Proofs.Settings
import InfixArithmetic.Proofs.Words
import Mathlib.Logic.Function.Basic

namespace InfixArithmetic.Calculator

/-! ## One choice -/

namespace Choice

/-- What a choice does to the options: the field that it writes was free, and the others stay. -/
inductive Adds : Choice → Options → Options → Prop where
  | maxInputLen {numeral : String} {n : Nat} (joined integersOnly noUnaryMinus : Bool) :
      Text.readLength? numeral.toList = some n →
      Adds (maxInputLen numeral joined) ⟨none, integersOnly, noUnaryMinus⟩
        ⟨some n, integersOnly, noUnaryMinus⟩
  | integersOnly (limit : Option Nat) (noUnaryMinus : Bool) :
      Adds integersOnly ⟨limit, false, noUnaryMinus⟩ ⟨limit, true, noUnaryMinus⟩
  | noUnaryMinus (limit : Option Nat) (integersOnly : Bool) :
      Adds noUnaryMinus ⟨limit, integersOnly, false⟩ ⟨limit, integersOnly, true⟩

variable {choice first second : Choice} {options options' options'' : Options}

theorem adds_of_addTo? (h : choice.addTo? options = some options') :
    choice.Adds options options' := by
  obtain ⟨limit, decimals, unaryMinus⟩ := options
  cases choice with
  | maxInputLen numeral joined =>
    cases limit with
    | some limit => cases h
    | none =>
      obtain ⟨n, hn, rfl⟩ := Option.map_eq_some_iff.mp h
      exact .maxInputLen joined decimals unaryMinus hn
  | integersOnly =>
    cases decimals with
    | true => cases h
    | false =>
      cases h
      exact .integersOnly limit unaryMinus
  | noUnaryMinus =>
    cases unaryMinus with
    | true => cases h
    | false =>
      cases h
      exact .noUnaryMinus limit decimals

theorem Adds.addTo? (h : choice.Adds options options') :
    choice.addTo? options = some options' := by
  cases h with
  | maxInputLen _ _ _ hn => simp [Choice.addTo?, Options.withMaxInputLen?, hn]
  | integersOnly => rfl
  | noUnaryMinus => rfl

/-- Choices of different fields can be made in either order; a field is chosen at most once. -/
theorem Adds.comm (hfirst : first.Adds options options')
    (hsecond : second.Adds options' options'') :
    ∃ between, second.Adds options between ∧ first.Adds between options'' := by
  cases hfirst with
  | maxInputLen joined _ _ hn =>
    cases hsecond with
    | integersOnly => exact ⟨_, .integersOnly _ _, .maxInputLen joined _ _ hn⟩
    | noUnaryMinus => exact ⟨_, .noUnaryMinus _ _, .maxInputLen joined _ _ hn⟩
  | integersOnly =>
    cases hsecond with
    | maxInputLen joined _ _ hn => exact ⟨_, .maxInputLen joined _ _ hn, .integersOnly _ _⟩
    | noUnaryMinus => exact ⟨_, .noUnaryMinus _ _, .integersOnly _ _⟩
  | noUnaryMinus =>
    cases hsecond with
    | maxInputLen joined _ _ hn => exact ⟨_, .maxInputLen joined _ _ hn, .noUnaryMinus _ _⟩
    | integersOnly => exact ⟨_, .integersOnly _ _, .noUnaryMinus _ _⟩

end Choice

/-! ## The configuration -/

theorem readVariable?_readFlag?_encode_zero :
    readVariable? readFlag? (some (Text.encode "0")) = some false := by
  rw [readVariable?_encode]
  rfl

/-- A choice says what the variable of its field can say, whatever that was set to. -/
theorem configOf_eq_of_adds {choice : Choice} {options options' : Options}
    (h : choice.Adds options options') (environment : Environment) :
    configOf environment options' =
      configOf (Function.update environment choice.setting (some (Text.encode choice.value)))
        options := by
  unfold configOf
  rw [Config.fst_ofEnvironment, Config.fst_ofEnvironment]
  cases h with
  | maxInputLen _ _ _ hn =>
    simp [Choice.setting, Choice.value, Options.applyTo, readVariable?_encode_of_readLength? hn]
  | integersOnly =>
    simp [Choice.setting, Choice.value, Options.applyTo, readVariable?_readFlag?_encode_zero]
  | noUnaryMinus =>
    simp [Choice.setting, Choice.value, Options.applyTo, readVariable?_readFlag?_encode_zero]

/-! ## The other words -/

namespace Request

/-- The second request is the first one without a choice. -/
inductive Drops (choice : Choice) : Request → Request → Prop where
  | help : Drops choice help help
  | version : Drops choice version version
  | calculate {options options' : Options} (words : List String) :
      choice.Adds options options' →
      Drops choice (calculate options' words) (calculate options words)

variable {choice : Choice} {awaitsLimit : Bool}

theorem choose_of_adds {options options' : Options} (h : choice.Adds options options')
    (words : List String) : choose choice options words = after options' false words :=
  choose_of_eq_some h.addTo? words

/-- On a command line that is accepted every choice can be made. -/
theorem exists_adds_of_choose {options : Options} {words : List String}
    (h : choose choice options words ≠ misuse) :
    ∃ options', choice.Adds options options' ∧ after options' false words ≠ misuse := by
  obtain ⟨options', hchoice⟩ := exists_addTo?_of_choose h
  rw [choose_of_eq_some hchoice] at h
  exact ⟨options', Choice.adds_of_addTo? hchoice, h⟩

theorem drops_self_of_settled {request : Request}
    (hsettled : request = help ∨ request = version ∨ request = misuse)
    (haccepted : request ≠ misuse) : Drops choice request request := by
  rcases hsettled with rfl | rfl | rfl
  · exact .help
  · exact .version
  · exact absurd rfl haccepted

/-- The words behind a choice are read the same without it. -/
theorem drops_after {options options' : Options} (hadds : choice.Adds options options')
    (words : List String) (haccepted : after options' awaitsLimit words ≠ misuse) :
    Drops choice (after options' awaitsLimit words) (after options awaitsLimit words) := by
  induction words generalizing awaitsLimit options options' with
  | nil =>
    cases awaitsLimit with
    | true => exact absurd rfl haccepted
    | false => exact .calculate [] hadds
  | cons word words ih =>
    cases turn_of_word awaitsLimit word with
    | chooses second hafter =>
      rw [hafter] at haccepted
      rw [hafter, hafter]
      obtain ⟨options'', hsecond, haccepted⟩ := exists_adds_of_choose haccepted
      -- the choice that is left out changes places with the one that the word makes
      obtain ⟨between, hbetween, hlast⟩ := hadds.comm hsecond
      rw [choose_of_adds hsecond, choose_of_adds hbetween]
      exact ih hlast haccepted
    | awaits hafter =>
      rw [hafter] at haccepted
      rw [hafter, hafter]
      exact ih hadds haccepted
    | separates _ hafter =>
      rw [hafter, hafter]
      exact .calculate words hadds
    | begins hafter =>
      rw [hafter, hafter]
      exact .calculate (word :: words) hadds
    | settles request hsettled hafter =>
      rw [hafter] at haccepted
      rw [hafter, hafter]
      exact drops_self_of_settled hsettled haccepted

/-- The words of a choice can be taken out where an option is due. -/
theorem drops_of_optionDue {options : Options} {front : List String} (back : List String)
    (hfront : optionDue awaitsLimit front = true)
    (haccepted : after options awaitsLimit (front ++ choice.words ++ back) ≠ misuse) :
    Drops choice (after options awaitsLimit (front ++ choice.words ++ back))
      (after options awaitsLimit (front ++ back)) := by
  induction front generalizing awaitsLimit options with
  | nil =>
    cases awaitsLimit with
    | true => cases hfront
    | false =>
      rw [List.nil_append, after_words] at haccepted
      rw [List.nil_append, after_words, List.nil_append]
      obtain ⟨options', hchoice, haccepted⟩ := exists_adds_of_choose haccepted
      rw [choose_of_adds hchoice]
      exact drops_after hchoice back haccepted
  | cons word front ih =>
    rw [List.cons_append, List.cons_append] at haccepted
    rw [List.cons_append, List.cons_append, List.cons_append]
    cases turn_of_word awaitsLimit word with
    | chooses first hafter hdue =>
      rw [hdue] at hfront
      rw [hafter] at haccepted
      rw [hafter, hafter]
      obtain ⟨options', hfirst, haccepted⟩ := exists_adds_of_choose haccepted
      rw [choose_of_adds hfirst, choose_of_adds hfirst]
      exact ih hfront haccepted
    | awaits hafter hdue =>
      rw [hdue] at hfront
      rw [hafter] at haccepted
      rw [hafter, hafter]
      exact ih hfront haccepted
    | separates _ _ hdue =>
      rw [hdue] at hfront
      cases hfront
    | begins _ hdue =>
      rw [hdue] at hfront
      cases hfront
    | settles request hsettled hafter =>
      rw [hafter] at haccepted
      rw [hafter, hafter]
      exact drops_self_of_settled hsettled haccepted

end Request

/-! ## Runs -/

/-- An option of an accepted command line can be taken out, and the variable of its field set to
what the option says instead, whatever it was set to before: nothing about the run changes. An
option stands where options are still read and none waits for its value. -/
theorem run_option_eq_run_variable (environment : Environment) (choice : Choice)
    {front back : List String} (stdin : Text.Bytes) (hfront : Request.optionDue false front = true)
    (haccepted : Request.ofWords (front ++ choice.words ++ back) ≠ .misuse) :
    run environment (front ++ choice.words ++ back) stdin =
      run (Function.update environment choice.setting (some (Text.encode choice.value)))
        (front ++ back) stdin := by
  have hdrops : Request.Drops choice (Request.ofWords (front ++ choice.words ++ back))
      (Request.ofWords (front ++ back)) := Request.drops_of_optionDue back hfront haccepted
  unfold run
  generalize Request.ofWords (front ++ choice.words ++ back) = request at hdrops ⊢
  generalize Request.ofWords (front ++ back) = request' at hdrops ⊢
  cases hdrops with
  | help => rfl
  | version => rfl
  | calculate words hadds =>
    have hconfig := configOf_eq_of_adds hadds environment
    cases words with
    | nil => exact congrArg (answerLines · (Text.lines stdin)) hconfig
    | cons word words => exact congrArg (answer · (" ".intercalate (word :: words))) hconfig

/-- A limit joined to its option, with a plus sign and zeros, between an option and a word that
reads like one; the variable of the limit is set to bytes that are no text. -/
theorem run_option_eq_run_variable_limit :
    let environment : Environment
      | .maxInputLen => some [0xff]
      | .decimals => some (Text.encode " ON ")
      | .unaryMinus => none
    let front := ["--no-unary-minus"]
    let choice := Choice.maxInputLen "+0003" true
    let back := ["--", "--integers-only", "-1.5"]
    Request.optionDue false front = true ∧
      Request.ofWords (front ++ choice.words ++ back) ≠ .misuse ∧
      run environment (front ++ choice.words ++ back) [] =
        run (Function.update environment .maxInputLen (some (Text.encode "+0003")))
          (front ++ back) [] := by
  intro environment front choice back
  have hfront : Request.optionDue false front = true := by decide
  have haccepted : Request.ofWords (front ++ choice.words ++ back) ≠ .misuse := by decide
  exact ⟨hfront, haccepted, run_option_eq_run_variable environment choice [] hfront haccepted⟩

end InfixArithmetic.Calculator
