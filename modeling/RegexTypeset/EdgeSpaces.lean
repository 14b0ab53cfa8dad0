import RegexTypeset.Count
import RegexTypeset.Token

/-! # Edge spaces

Spaces at the edges of a pattern cannot be seen in a rendered sample, so they are
counted and cut off. In a text, a space stays if a quantifier applies to it or if a
backslash escapes it. In a list of tokens, the literal spaces count. Leading spaces are
taken first: what consists of spaces only has no trailing ones.
-/
namespace RegexTypeset

structure EdgeSpaces where
  leading : Nat
  trailing : Nat
deriving DecidableEq, Repr

namespace EdgeSpaces

def none : EdgeSpaces := ⟨0, 0⟩

def startsWithQuantifier : List Char → Bool
  | '*' :: _ => true
  | '+' :: _ => true
  | '?' :: _ => true
  | text => (Count.scan? text).isSome

def leadingIn (text : List Char) : Nat :=
  let run := (text.takeWhile (· = ' ')).length
  if startsWithQuantifier (text.dropWhile (· = ' ')) then run - 1 else run

/-- An odd number of backslashes at the end of a text, here given in reverse, leaves the last
one without its other half. -/
def endsInEscape (reversed : List Char) : Bool :=
  (reversed.takeWhile (· = '\\')).length % 2 = 1

def trailingIn (text : List Char) : Nat :=
  let run := (text.reverse.takeWhile (· = ' ')).length
  if endsInEscape (text.reverse.dropWhile (· = ' ')) then run - 1 else run

def ofText (text : List Char) : EdgeSpaces :=
  let leading := leadingIn text
  ⟨leading, trailingIn (text.drop leading)⟩

def ofTokens (tokens : List Token) : EdgeSpaces :=
  let leading := (tokens.takeWhile Token.isSpace).length
  ⟨leading, ((tokens.drop leading).reverse.takeWhile Token.isSpace).length⟩

def cut {α : Type} (edges : EdgeSpaces) (items : List α) : List α :=
  let rest := items.drop edges.leading
  rest.take (rest.length - edges.trailing)

end EdgeSpaces

end RegexTypeset
