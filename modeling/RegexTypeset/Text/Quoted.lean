import RegexTypeset.Text.Combining
import RegexTypeset.Text.Printable

/-! # Quoted text

Messages show text and single characters between quotes. Controls with a usual
escape, the backslash and the quote itself get a backslash; a character that has no
shape of its own is shown by its code point in lowercase hexadecimal digits.
-/
namespace RegexTypeset.Quoted

def hexDigits (c : Char) : List Char := Nat.toDigits 16 c.toNat

def escape (quote : Char) (c : Char) : List Char :=
  match c with
  | '\x00' => ['\\', '0']
  | '\t' => ['\\', 't']
  | '\r' => ['\\', 'r']
  | '\n' => ['\\', 'n']
  | '\\' => ['\\', '\\']
  | c =>
    if c = quote then ['\\', c]
    else if isCombining c || !isPrintable c then ['\\', 'u', '{'] ++ hexDigits c ++ ['}']
    else [c]

def string (s : String) : String :=
  String.ofList ('"' :: s.toList.flatMap (escape '"') ++ ['"'])

def char (c : Char) : String :=
  String.ofList ('\'' :: escape '\'' c ++ ['\''])

end RegexTypeset.Quoted
