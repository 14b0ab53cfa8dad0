import RegexTypeset.Flags
import RegexTypeset.Token

/-! # Lexemes

A lexeme is a piece of pattern text with a meaning of its own: an item, a quantifier, a
bar, a parenthesis, a flag directive, or filler that means nothing. A character class
and an escape sequence are one lexeme each; so is the opening parenthesis of a group
together with the header that gives its kind.
-/
namespace RegexTypeset

inductive GroupKind where
  /-- Capturing or not, named or not. -/
  | plain
  /-- Flags are set and cleared for the content of the group. -/
  | flagged (added removed : Flags)
  /-- The content is checked and then dropped. -/
  | unrendered (construct : Construct)
deriving DecidableEq, Repr

namespace GroupKind

def token : GroupKind → List Token → Token
  | plain, items => .group items
  | flagged _ _, items => .group items
  | unrendered construct, _ => .unrendered construct

def inner (outer : Flags) : GroupKind → Flags
  | flagged added removed => (outer ∪ added) \ removed
  | _ => outer

/-- The flags in force after the group, from those before it and those at its end. Only a
group that sets flags of its own gives back the flags before it. -/
def after (outer last : Flags) : GroupKind → Flags
  | flagged _ _ => outer
  | _ => last

end GroupKind

inductive Lexeme where
  | filler
  | item (token : Token)
  | quantifier (quantifier : Quantifier)
  | flags (added : Flags)
  | opening (kind : GroupKind)
  | bar
  | closing
deriving Repr

end RegexTypeset
