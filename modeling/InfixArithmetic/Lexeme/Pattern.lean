/-
  The grammar of tokens, as a parsing expression grammar.

  A pattern reads from the head of a text, and in one way only: a repetition reads as often as it
  can and gives nothing back, a choice is settled by its first alternative that reads, and what is
  read before a failure is not read again in another way. The scan of a text is written without
  patterns; that it reads what the grammar reads is proved beside it.
-/
import InfixArithmetic.Lexeme

namespace InfixArithmetic

/-- The patterns of a grammar. -/
inductive Pattern where
  | digit
  | char (c : Char)
  | seq (first second : Pattern)
  | choice (first second : Pattern)
  | optional (p : Pattern)
  | star (p : Pattern)
  /-- Reads nothing, and only where `p` does not read. -/
  | notAhead (p : Pattern)
  | endOfText
  deriving DecidableEq, Repr

namespace Pattern

/-- What is left after reading as often as possible; a pass that reads nothing is not made. -/
def readAll (read : List Char → Option (List Char)) (cs : List Char) : List Char :=
  match read cs with
  | none => cs
  | some rest => if rest.length < cs.length then readAll read rest else cs
termination_by cs.length

/-- What a pattern leaves of a text, if it reads. -/
def read : Pattern → List Char → Option (List Char)
  | digit, c :: cs => if c.isDigit then some cs else none
  | char d, c :: cs => if c = d then some cs else none
  | digit, [] | char _, [] => none
  | seq first second, cs => (first.read cs).bind second.read
  | choice first second, cs => (first.read cs).or (second.read cs)
  | optional p, cs => some ((p.read cs).getD cs)
  | star p, cs => some (readAll p.read cs)
  | notAhead p, cs => if (p.read cs).isSome then none else some cs
  | endOfText, cs => if cs = [] then some cs else none

/-- One or more. -/
def plus (p : Pattern) : Pattern := p.seq p.star

/-! ## The rules -/

/-- Digits with or without a point and more digits, or a point and digits; and no point behind. -/
def number : Pattern :=
  ((digit.plus.seq ((char '.').seq digit.star).optional).choice ((char '.').seq digit.plus)).seq
    (char '.').notAhead

def operator : Pattern :=
  (char '+').choice <| (char '-').choice <| (char '*').choice <| char '/'

def token : Pattern :=
  number.choice <| operator.choice <| (char '(').choice <| char ')'

/-- A text, from its start. -/
def tokens : Pattern := token.plus.seq endOfText

end Pattern

end InfixArithmetic
