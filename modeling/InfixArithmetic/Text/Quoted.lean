/-
  Quoted text, as messages show a character or a string.

  A character is written as itself unless it would be invisible, would join its neighbour or would
  end the quotation: five controls and the backslash have short escapes, the quotation mark in use
  is escaped with a backslash, and the rest are written by code point. Hence a quotation of any
  text is one visible line.
-/
import InfixArithmetic.Text.Property

namespace InfixArithmetic.Text

/-- A code point in hexadecimal, as it is written for a character that cannot be shown. -/
def escapeCodePoint (c : Char) : String :=
  "\\u\x7b" ++ String.ofList (Nat.toDigits 16 c.toNat) ++ "\x7d"

/-- One character inside a quotation that `mark` delimits. -/
def escape (mark : Char) (c : Char) : String :=
  if c = '\x00' then "\\0"
  else if c = '\t' then "\\t"
  else if c = '\r' then "\\r"
  else if c = '\n' then "\\n"
  else if c = '\\' then "\\\\"
  else if c = mark then String.ofList ['\\', c]
  else if isExtending c || !isPrintable c then escapeCodePoint c
  else String.singleton c

/-- A character between single quotation marks. -/
def quoteChar (c : Char) : String :=
  "'" ++ escape '\'' c ++ "'"

/-- A text between double quotation marks. -/
def quoteString (text : String) : String :=
  "\"" ++ String.join (text.toList.map (escape '"')) ++ "\""

end InfixArithmetic.Text
