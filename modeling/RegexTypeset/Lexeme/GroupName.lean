import RegexTypeset.PatternError
import RegexTypeset.Text.Alphabetic
import RegexTypeset.Text.Numeric

/-! # Group names

A group is named by an identifier: a letter or an underscore, then letters, digits and
underscores, of any script. Where a group is referred to by a name that ends in a
parenthesis, it may also be given by its number in ASCII digits.
-/
namespace RegexTypeset.GroupName

def isStart (c : Char) : Bool := isAlphabetic c || c == '_'

def isPart (c : Char) : Bool := isAlphabetic c || isNumeric c || c == '_'

def isIdentifier : List Char → Bool
  | [] => false
  | c :: rest => isStart c && (c :: rest).all isPart

def isNumber (name : List Char) : Bool := !name.isEmpty && name.all Char.isDigit

def isValid (terminator : Char) (name : List Char) : Bool :=
  isIdentifier name || (terminator == ')' && isNumber name)

def read (terminator : Char) (text : List Char) : Except Fault (String × List Char) :=
  let name := text.takeWhile (· ≠ terminator)
  match text.dropWhile (· ≠ terminator) with
  | [] => .error ⟨.unexpectedEnd, text⟩
  | _ :: rest =>
    if isValid terminator name then .ok (String.ofList name, rest)
    else .error ⟨.badGroupName (String.ofList name), text⟩

theorem suffix_of_read {terminator : Char} {text after : List Char} {name : String}
    (h : read terminator text = .ok (name, after)) : after <:+ text := by
  simp only [read] at h
  split at h
  case h_1 => cases h
  case h_2 stop rest found =>
    split at h
    case isTrue =>
      cases h
      exact (List.suffix_cons stop after).trans (found ▸ List.dropWhile_suffix _)
    case isFalse => cases h

end RegexTypeset.GroupName
