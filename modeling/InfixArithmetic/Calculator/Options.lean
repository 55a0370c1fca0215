/-
  The words of a command line: options first, then an expression.

  Options are read from left to right and end at the first word that is none, or at `--`, which is
  dropped. From there on every word belongs to the expression, whatever it looks like. A word that
  merely resembles an option is an expression word too. The first fault, or the first request for
  help or the version, settles the matter.

  Two options have a letter. Letters may share a hyphen if each of them is an option; since both
  settle the matter, the first one does (`Mark.ofLetters?`).
-/
import InfixArithmetic.Config
import InfixArithmetic.Text.Numeral

namespace InfixArithmetic.Calculator

/-- What options change about a configuration. -/
structure Options where
  maxInputLen : Option Nat := none
  integersOnly : Bool := false
  noUnaryMinus : Bool := false
  deriving DecidableEq, Repr

/-- What a command line asks for. -/
inductive Request where
  | help
  | version
  /-- The options cannot be used. -/
  | misuse
  /-- Evaluate the words, or standard input if there are none. -/
  | calculate (options : Options) (words : List String)
  deriving DecidableEq, Repr

/-! ## One word -/

/-- What a word is where an option may stand. -/
inductive Mark where
  | separator
  | help
  | version
  | integersOnly
  | noUnaryMinus
  /-- The limit on the length; its value is the next word. -/
  | maxInputLen
  /-- The limit on the length with its value. -/
  | maxInputLenIs (value : String)
  /-- An option that takes no value, with a value. -/
  | needlessValue
  | expression
  deriving DecidableEq, Repr

/-- What stands behind `name=` in a word. -/
def attachedValue? (name word : String) : Option String :=
  let start := name.toList ++ ['=']
  if start.isPrefixOf word.toList then some (String.ofList (word.toList.drop start.length))
  else none

/-- The options that take no value. -/
def valueless : List String := ["--help", "--version", "--integers-only", "--no-unary-minus"]

/-- The option that a letter stands for. -/
def Mark.ofLetter? : Char → Option Mark
  | 'h' => some help
  | 'V' => some version
  | _ => none

/-- What a hyphen and letters stand for, if every letter is an option. -/
def Mark.ofLetters? : List Char → Option Mark
  | '-' :: letter :: letters =>
    if letters.all fun c => (ofLetter? c).isSome then ofLetter? letter else none
  | _ => none

/-- What a word without option letters is, by its spelling. -/
def Mark.ofName (word : String) : Mark :=
  if word = "--" then separator
  else if word = "--help" then help
  else if word = "--version" then version
  else if word = "--integers-only" then integersOnly
  else if word = "--no-unary-minus" then noUnaryMinus
  else if word = "--max-input-len" then maxInputLen
  else
    match attachedValue? "--max-input-len" word with
    | some value => maxInputLenIs value
    | none =>
      if valueless.any fun name => (attachedValue? name word).isSome then needlessValue
      else expression

/-- What a word is, by its spelling. -/
def Mark.ofWord (word : String) : Mark :=
  (ofLetters? word.toList).getD (ofName word)

/-! ## All words -/

namespace Options

/-- The options with the limit of a numeral, unless there is one already. -/
def withMaxInputLen? (options : Options) (value : String) : Option Options :=
  if options.maxInputLen.isSome then none
  else (Text.readLength? value.toList).map fun n => { options with maxInputLen := some n }

/-- The options without decimals, unless that is set already. -/
def withIntegersOnly? (options : Options) : Option Options :=
  if options.integersOnly then none else some { options with integersOnly := true }

/-- The options without negation, unless that is set already. -/
def withNoUnaryMinus? (options : Options) : Option Options :=
  if options.noUnaryMinus then none else some { options with noUnaryMinus := true }

/-- A configuration with the options laid over it. -/
def applyTo (options : Options) (config : Config) : Config where
  maxInputLen := options.maxInputLen.getD config.maxInputLen
  decimals := config.decimals && !options.integersOnly
  unaryMinus := config.unaryMinus && !options.noUnaryMinus

end Options

/-- What the rest of a command line asks for, after the given options. With `awaitsLimit` the word
before was the option for the limit, without its value. -/
def Request.after (options : Options) (awaitsLimit : Bool) : List String → Request
  | [] => if awaitsLimit then misuse else calculate options []
  | word :: words =>
    if awaitsLimit then
      match options.withMaxInputLen? word with
      | none => misuse
      | some options => after options false words
    else
      match Mark.ofWord word with
      | .separator => calculate options words
      | .help => help
      | .version => version
      | .integersOnly =>
        match options.withIntegersOnly? with
        | none => misuse
        | some options => after options false words
      | .noUnaryMinus =>
        match options.withNoUnaryMinus? with
        | none => misuse
        | some options => after options false words
      | .maxInputLen => after options true words
      | .maxInputLenIs value =>
        match options.withMaxInputLen? value with
        | none => misuse
        | some options => after options false words
      | .needlessValue => misuse
      | .expression => calculate options (word :: words)

/-- What a command line asks for. -/
def Request.ofWords (words : List String) : Request := after {} false words

end InfixArithmetic.Calculator
