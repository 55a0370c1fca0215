/-
  Configuration from the environment.

  Each setting has a variable of its own. An unset variable leaves the default, and so does one
  whose bytes are no text; a value that cannot be read leaves the default with a warning. Values are
  read without the blanks around them, and warnings quote them as they are. Warnings are entries of
  the log; the logger is taken to be silent, so that no transcript shows them.
-/
import InfixArithmetic.Log
import InfixArithmetic.Text.Blank
import InfixArithmetic.Text.Lines
import InfixArithmetic.Text.Numeral

namespace InfixArithmetic

/-- The values of the variables that are set. -/
abbrev Environment := Setting → Option Text.Bytes

/-- A truth value, in one of its spellings, upper and lower case alike. -/
def readFlag? (cs : List Char) : Option Bool :=
  let word := String.ofList (cs.map Char.toLower)
  if word ∈ ["1", "true", "yes", "on"] then some true
  else if word ∈ ["0", "false", "no", "off"] then some false
  else none

/-- A configuration with one field set to what a text says, if the text can be read. -/
def Config.set? (config : Config) (setting : Setting) (text : String) : Option Config :=
  let cs := Text.trimBlanks text.toList
  match setting with
  | .maxInputLen => (Text.readLength? cs).map fun n => { config with maxInputLen := n }
  | .decimals => (readFlag? cs).map fun b => { config with decimals := b }
  | .unaryMinus => (readFlag? cs).map fun b => { config with unaryMinus := b }

/-- A configuration with the value of one variable taken over, and a warning if it cannot be. -/
def Config.overlay (config : Config) (setting : Setting) (value : Option Text.Bytes) :
    Config × List Event :=
  match value.bind Text.decode? with
  | none => (config, [])
  | some text =>
    match config.set? setting text with
    | some config => (config, [])
    | none => (config, [.ignored setting text])

/-- The settings in the order in which their variables are looked at. -/
def Setting.all : List Setting := [.maxInputLen, .decimals, .unaryMinus]

/-- The defaults with the environment laid over them, and the warnings. -/
def Config.ofEnvironment (environment : Environment) : Config × List Event :=
  Setting.all.foldl
    (fun (config, log) setting =>
      let (config, warnings) := config.overlay setting (environment setting)
      (config, log ++ warnings))
    ({}, [])

end InfixArithmetic
