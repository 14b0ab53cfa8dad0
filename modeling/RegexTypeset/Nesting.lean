import RegexTypeset.Lexeme.Basic
import RegexTypeset.PatternError

/-! # Open groups

While a pattern is read, the groups that are still open form a stack. Each keeps what
was read around it, so that a closing parenthesis puts the finished group there. A
nesting holds that stack, the content of the innermost group so far, and the flags: in
scope at the place that is read, and found for the whole pattern.
-/
namespace RegexTypeset

/-- The alternatives of a group or of the pattern, as far as they are read: the finished
branches and the items of the current one, both with the latest first. -/
structure Alternatives where
  branches : List (List Token)
  items : List Token
deriving Repr

namespace Alternatives

def empty : Alternatives := ⟨[], []⟩

def add (a : Alternatives) (token : Token) : Alternatives := { a with items := token :: a.items }

def split (a : Alternatives) : Alternatives := ⟨a.items.reverse :: a.branches, []⟩

def tokens (a : Alternatives) : List Token :=
  if a.branches.isEmpty then a.items.reverse
  else [.alternation (a.items.reverse :: a.branches).reverse]

def quantify (a : Alternatives) (quantifier : Quantifier) : Except Cause Alternatives :=
  match a.items with
  | [] => .error .nothingToRepeat
  | .anchor _ :: _ => .error .nothingToRepeat
  | .repeated _ _ :: _ => .error .multipleRepeat
  | body :: items => .ok { a with items := .repeated quantifier body :: items }

end Alternatives

/-- A group whose end is not read yet: its kind, the text from its parenthesis on, the flags
in force before it, and what was read around it. -/
structure OpenGroup where
  kind : GroupKind
  opened : List Char
  outer : Flags
  around : Alternatives
deriving Repr

structure Nesting where
  scope : Flags
  global : Flags
  current : Alternatives
  groups : List OpenGroup
deriving Repr

namespace Nesting

def maxDepth : Nat := 200

def start (flags : Flags) : Nesting := ⟨flags, flags, .empty, []⟩

def depth (n : Nesting) : Nat := n.groups.length

def isVerbose (n : Nesting) : Bool := n.scope.has .verbose

def add (n : Nesting) (token : Token) : Nesting := { n with current := n.current.add token }

def addFlags (n : Nesting) (flags : Flags) : Nesting :=
  { n with scope := n.scope ∪ flags, global := n.global ∪ flags }

def openGroup (n : Nesting) (place : List Char) (kind : GroupKind) : Nesting :=
  { n with
    scope := kind.inner n.scope
    current := .empty
    groups := ⟨kind, place, n.scope, n.current⟩ :: n.groups }

def closeGroup? (n : Nesting) : Option Nesting :=
  match n.groups with
  | [] => none
  | group :: groups =>
    some { n with
      scope := group.kind.after group.outer n.scope
      current := group.around.add (group.kind.token n.current.tokens)
      groups := groups }

def push (n : Nesting) (place : List Char) : Lexeme → Except Fault Nesting
  | .filler => .ok n
  | .item token => .ok (n.add token)
  | .flags added => .ok (n.addFlags added)
  | .bar => .ok { n with current := n.current.split }
  | .opening kind => .ok (n.openGroup place kind)
  | .closing =>
    match n.closeGroup? with
    | some n' => .ok n'
    | none => .error ⟨.unbalancedParenthesis, place⟩
  | .quantifier quantifier =>
    match n.current.quantify quantifier with
    | .ok current => .ok { n with current := current }
    | .error cause => .error ⟨cause, place⟩

def finish (n : Nesting) : Except Fault (List Token) :=
  match n.groups with
  | [] => .ok n.current.tokens
  | group :: _ => .error ⟨.unterminatedGroup, group.opened⟩

end Nesting

end RegexTypeset
