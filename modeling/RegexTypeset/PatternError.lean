import RegexTypeset.Text.Bytes
import RegexTypeset.Text.Quoted

/-! # Errors in a pattern

While a pattern is read, a fault is a cause together with the part of the text that is
still to be read at the place it points to. Seen from the whole text, the place is the
number of bytes in front of that part.
-/
namespace RegexTypeset

inductive Cause where
  | nothingToRepeat
  | multipleRepeat
  | repeatBounds
  | unterminatedGroup
  | unbalancedParenthesis
  | unterminatedClass
  | badRange (lo hi : Char)
  | badEscape (text : String)
  | unknownExtension (c : Char)
  | badFlag (c : Char)
  | badGroupName (name : String)
  | unexpectedEnd
  | tooDeep
deriving DecidableEq, Repr

def Cause.message : Cause → String
  | nothingToRepeat => "nothing to repeat"
  | multipleRepeat => "multiple repeat"
  | repeatBounds => "min repeat greater than max repeat"
  | unterminatedGroup => "missing ), unterminated subpattern"
  | unbalancedParenthesis => "unbalanced parenthesis"
  | unterminatedClass => "unterminated character set"
  | badRange lo hi =>
    "bad character range " ++ String.singleton lo ++ "-" ++ String.singleton hi
  | badEscape text => "bad escape " ++ text
  | unknownExtension c => "unknown extension ?" ++ String.singleton c
  | badFlag c => "bad inline flag " ++ Quoted.char c
  | badGroupName name => "bad group name " ++ Quoted.string name
  | unexpectedEnd => "unexpected end of pattern"
  | tooDeep => "too many nested parentheses"

/-- A cause and the text from the place of the fault on. -/
structure Fault where
  cause : Cause
  place : List Char
deriving DecidableEq, Repr

/-- A pattern was refused. The offset counts bytes. -/
structure PatternError where
  cause : Cause
  offset : Nat
deriving DecidableEq, Repr

namespace PatternError

def message (e : PatternError) : String :=
  e.cause.message ++ " at position " ++ toString e.offset

end PatternError

def Fault.locate (fault : Fault) (text : List Char) : PatternError :=
  ⟨fault.cause, byteLength text - byteLength fault.place⟩

end RegexTypeset
