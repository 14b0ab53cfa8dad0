/-! # Token trees

A pattern is read into a list of tokens. Groups, character classes, repetitions and
alternations hold further tokens. Constructs that have no rendering keep only what a
message about them needs. A tree made by hand may be malformed: an alternation of
fewer than two branches, an empty class, or bounds in the wrong order.
-/
namespace RegexTypeset

inductive Anchor where
  | lineStart
  | lineEnd
  | textStart
  | textEnd
  | wordBoundary
  | notWordBoundary
deriving DecidableEq, Repr

namespace Anchor

def symbol : Anchor → String
  | lineStart => "^"
  | lineEnd => "$"
  | textStart => "\\A"
  | textEnd => "\\Z"
  | wordBoundary => "\\b"
  | notWordBoundary => "\\B"

def ofLetter? : Char → Option Anchor
  | 'A' => some textStart
  | 'Z' => some textEnd
  | 'b' => some wordBoundary
  | 'B' => some notWordBoundary
  | _ => none

end Anchor

inductive Category where
  | digit
  | notDigit
  | space
  | notSpace
  | word
  | notWord
deriving DecidableEq, Repr

namespace Category

def symbol : Category → String
  | digit => "\\d"
  | notDigit => "\\D"
  | space => "\\s"
  | notSpace => "\\S"
  | word => "\\w"
  | notWord => "\\W"

def ofLetter? : Char → Option Category
  | 'd' => some digit
  | 'D' => some notDigit
  | 's' => some space
  | 'S' => some notSpace
  | 'w' => some word
  | 'W' => some notWord
  | _ => none

end Category

/-- A construct that has no rendering. -/
inductive Construct where
  | backreference (group : String)
  | lookaround (ahead negative : Bool)
  | negatedClass
  | conditional (group : String)
deriving DecidableEq, Repr

def Construct.name : Construct → String
  | backreference group => "backreference to group " ++ group
  | lookaround ahead negative =>
    (if negative then "negative " else "positive ") ++
      (if ahead then "lookahead" else "lookbehind") ++ " assertion"
  | negatedClass => "negated character class"
  | conditional group => "conditional on group " ++ group

structure Quantifier where
  min : UInt32
  max : Option UInt32
  isLazy : Bool
deriving DecidableEq, Repr

inductive Token where
  | literal (c : Char)
  | anchor (anchor : Anchor)
  | group (items : List Token)
  | charClass (items : List Token)
  | charRange (lo hi : Char)
  | category (category : Category)
  | repeated (quantifier : Quantifier) (body : Token)
  | alternation (branches : List (List Token))
  | wildcard
  | unrendered (construct : Construct)
deriving Repr

namespace Token

def isSpace : Token → Bool
  | literal ' ' => true
  | _ => false

end Token

end RegexTypeset
