/-! # Lines of input

Input is a sequence of bytes. A line ends at a newline; one carriage return right before
the newline belongs to the line end. Bytes after the last newline are a line too, and a
carriage return at the end of those stays. A line is text if its bytes are UTF-8.
-/
namespace RegexTypeset.Lines

/-- The bytes of a line, given with the latest first, without a carriage return at the end. -/
def ended : List UInt8 → List UInt8
  | 13 :: rest => rest.reverse
  | line => line.reverse

def splitFrom (current : List UInt8) : List UInt8 → List (List UInt8)
  | [] => if current.isEmpty then [] else [current.reverse]
  | 10 :: rest => ended current :: splitFrom [] rest
  | byte :: rest => splitFrom (byte :: current) rest

def split (bytes : List UInt8) : List (List UInt8) := splitFrom [] bytes

def decode? (line : List UInt8) : Option String := String.fromUTF8? ⟨line.toArray⟩

def read? (input : ByteArray) : Option (List String) := (split input.data.toList).mapM decode?

end RegexTypeset.Lines
