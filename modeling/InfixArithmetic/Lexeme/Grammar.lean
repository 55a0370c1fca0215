/-
  The rules of the grammar of tokens, and the pairs that a reading by it leaves.

  A grammar is a pattern in which some parts have the name of a rule. What such a part reads becomes
  a pair: the rule, the text, and the pairs read inside. A part without a name leaves the pairs
  inside as they are; so does the rule of single tokens, which is silent. What is read does not
  depend on the names: a reading by a grammar is one by its pattern (proved in
  `InfixArithmetic.Proofs.Pairs`).
-/
import InfixArithmetic.Lexeme.Pattern

namespace InfixArithmetic

/-- The rules of the grammar. -/
inductive Rule where
  | number
  | operator
  | openParen
  | closeParen
  | token
  | tokens
  /-- The end of the text. -/
  | endOfText
  deriving DecidableEq, Repr

/-- A piece of text, with the rule that has read it and the pairs inside. -/
inductive Pair where
  | node (rule : Rule) (text : List Char) (inner : List Pair)

namespace Pair

def rule : Pair → Rule
  | node rule _ _ => rule

def text : Pair → List Char
  | node _ text _ => text

def inner : Pair → List Pair
  | node _ _ inner => inner

end Pair

/-- A pattern with the names of rules in it. -/
inductive Grammar where
  /-- A pattern that leaves no pairs. -/
  | plain (p : Pattern)
  | named (rule : Rule) (body : Grammar)
  | seq (first second : Grammar)
  | choice (first second : Grammar)
  | star (body : Grammar)

namespace Grammar

/-! ## Reading -/

/-- The pairs of reading as often as possible, and what is left. -/
def readAll (read : List Char → Option (List Pair × List Char)) (cs : List Char) :
    List Pair × List Char :=
  match read cs with
  | none => ([], cs)
  | some (pairs, rest) =>
    if rest.length < cs.length then (pairs ++ (readAll read rest).1, (readAll read rest).2)
    else ([], cs)
termination_by cs.length

/-- The pairs of what a grammar reads of a text, and what it leaves, if it reads. -/
def read : Grammar → List Char → Option (List Pair × List Char)
  | plain p, cs => (p.read cs).map fun rest => ([], rest)
  | named rule body, cs =>
    (body.read cs).map fun (inner, rest) =>
      ([.node rule (cs.take (cs.length - rest.length)) inner], rest)
  | seq first second, cs =>
    (first.read cs).bind fun (pairs, rest) =>
      (second.read rest).map fun (pairs', rest) => (pairs ++ pairs', rest)
  | choice first second, cs => (first.read cs).or (second.read cs)
  | star body, cs => some (readAll body.read cs)

/-- The grammar without its names. -/
def pattern : Grammar → Pattern
  | plain p => p
  | named _ body => body.pattern
  | seq first second => first.pattern.seq second.pattern
  | choice first second => first.pattern.choice second.pattern
  | star body => body.pattern.star

/-! ## The rules -/

def number : Grammar := named .number (plain Pattern.number)

def operator : Grammar := named .operator (plain Pattern.operator)

def openParen : Grammar := named .openParen (plain (.char '('))

def closeParen : Grammar := named .closeParen (plain (.char ')'))

/-- One token. The rule is silent. -/
def token : Grammar := number.choice <| operator.choice <| openParen.choice closeParen

/-- A text, from its start to its end. -/
def tokens : Grammar :=
  named .tokens ((token.seq token.star).seq (named .endOfText (plain .endOfText)))

end Grammar

namespace Lexeme

/-- The rule that reads a lexeme. -/
def rule : Lexeme → Rule
  | number _ => .number
  | operator _ => .operator
  | openParen => .openParen
  | closeParen => .closeParen

/-- The pair of a lexeme. -/
def pair (l : Lexeme) : Pair := .node l.rule l.text []

end Lexeme

end InfixArithmetic
