/-! # Sets of characters given by ranges

A property of characters is stored as the list of the code point ranges that have
it, ends included, in increasing order. Membership looks at the first range that
does not end before the character.
-/
namespace RegexTypeset

abbrev Ranges := List (Nat × Nat)

namespace Ranges

def has (ranges : Ranges) (c : Char) : Bool :=
  match ranges.find? (fun range => c.toNat ≤ range.2) with
  | some range => range.1 ≤ c.toNat
  | none => false

end Ranges

end RegexTypeset
