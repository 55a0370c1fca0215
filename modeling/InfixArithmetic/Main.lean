/-
  The command `infix-calc`: reads what the calculator needs, prints its transcript and exits with
  its code. The log is not printed.
-/
import InfixArithmetic.Calculator.Run

namespace InfixArithmetic

/-- All bytes of a stream. -/
partial def readAll (stream : IO.FS.Stream) (bytes : ByteArray) : IO ByteArray := do
  let chunk ← stream.read 65536
  if chunk.isEmpty then return bytes
  readAll stream (bytes ++ chunk)

/-- Whether a run with these arguments looks at standard input. -/
def Calculator.readsInput (arguments : List String) : Bool :=
  match Calculator.Request.ofWords arguments with
  | .calculate _ [] => true
  | _ => false

end InfixArithmetic

open InfixArithmetic in
def main (arguments : List String) : IO UInt32 := do
  let lookUp (setting : Setting) : IO (Option Text.Bytes) :=
    return (← IO.getEnv setting.variable).map Text.encode
  let maxInputLen ← lookUp .maxInputLen
  let decimals ← lookUp .decimals
  let unaryMinus ← lookUp .unaryMinus
  let environment : Environment
    | .maxInputLen => maxInputLen
    | .decimals => decimals
    | .unaryMinus => unaryMinus
  let input ←
    if Calculator.readsInput arguments then readAll (← IO.getStdin) ByteArray.empty
    else pure ByteArray.empty
  let transcript := Calculator.run environment arguments input.toList
  (← IO.getStdout).putStr transcript.stdout
  (← IO.getStderr).putStr transcript.stderr
  return transcript.code.toUInt32
