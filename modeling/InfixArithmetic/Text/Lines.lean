/-
  Bytes of text: decoding, and division into lines.

  A line ends at a line feed; a carriage return directly before the line feed belongs to the ending.
  Bytes after the last line feed are a line too, with whatever they hold.
-/
namespace InfixArithmetic.Text

/-- Bytes in order. -/
abbrev Bytes := List UInt8

/-- The text that bytes encode, if they are valid UTF-8. -/
def decode? (bytes : Bytes) : Option String := String.fromUTF8? ⟨bytes.toArray⟩

/-- The bytes of a text. -/
def encode (text : String) : Bytes := text.toUTF8.data.toList

/-- Encoding loses nothing. -/
theorem decode?_encode (text : String) : decode? (encode text) = some text :=
  dif_pos text.isValidUTF8

/-- The byte that ends a line. -/
def lineFeed : UInt8 := 0x0a

/-- The byte that may stand before the end of a line. -/
def carriageReturn : UInt8 := 0x0d

/-- Puts a byte at the front of the first line. -/
def consLine (byte : UInt8) : List Bytes → List Bytes
  | [] => [[byte]]
  | line :: lines => (byte :: line) :: lines

/-- The lines, without their endings. -/
def lines : Bytes → List Bytes
  | [] => []
  | [byte] => if byte = lineFeed then [[]] else [[byte]]
  | byte :: next :: bytes =>
    if byte = lineFeed then [] :: lines (next :: bytes)
    else if byte = carriageReturn ∧ next = lineFeed then [] :: lines bytes
    else consLine byte (lines (next :: bytes))

end InfixArithmetic.Text
