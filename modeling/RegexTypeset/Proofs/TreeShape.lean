import RegexTypeset.Lexeme.GroupName
import RegexTypeset.Piece

/-! # The shape of token trees

What a pattern or a group holds is its content: a list of items, or one alternation of at
least two such lists. An item is a leaf, a group, or something repeated. Which tokens are
leaves is a parameter, so the trees that a reading returns and those that a rendering
gives back are two instances of one shape.
-/
namespace RegexTypeset

def Token.isRepeatable : Token → Bool
  | .anchor _ | .repeated _ _ | .alternation _ | .charRange _ _ => false
  | _ => true

mutual

inductive Item (leaf : Token → Prop) : Token → Prop where
  | leaf {token : Token} : leaf token → Item leaf token
  | group {items : List Token} : Content leaf items → Item leaf (.group items)
  | repeated {q : Quantifier} {body : Token} : q.isReversed = false → body.isRepeatable = true →
      Item leaf body → Item leaf (.repeated q body)

/-- All that stands in a pattern or between the parentheses of a group. -/
inductive Content (leaf : Token → Prop) : List Token → Prop where
  | sequence {items : List Token} : (∀ token ∈ items, Item leaf token) → Content leaf items
  | alternation {branches : List (List Token)} : 2 ≤ branches.length →
      (∀ branch ∈ branches, ∀ token ∈ branch, Item leaf token) →
      Content leaf [.alternation branches]

end

mutual

def Token.groupDepth : Token → Nat
  | .group items => listGroupDepth items + 1
  | .charClass items => listGroupDepth items
  | .repeated _ body => Token.groupDepth body
  | .alternation branches => branchGroupDepth branches
  | _ => 0

def listGroupDepth : List Token → Nat
  | [] => 0
  | token :: tokens => max (Token.groupDepth token) (listGroupDepth tokens)

def branchGroupDepth : List (List Token) → Nat
  | [] => 0
  | branch :: branches => max (listGroupDepth branch) (branchGroupDepth branches)

end

theorem listGroupDepth_le {tokens : List Token} {d : Nat} :
    listGroupDepth tokens ≤ d ↔ ∀ token ∈ tokens, token.groupDepth ≤ d := by
  induction tokens with
  | nil => simp [listGroupDepth]
  | cons token tokens ih => simp only [listGroupDepth, Nat.max_le, ih, List.forall_mem_cons]

theorem branchGroupDepth_le {branches : List (List Token)} {d : Nat} :
    branchGroupDepth branches ≤ d ↔ ∀ branch ∈ branches, ∀ token ∈ branch, token.groupDepth ≤ d := by
  induction branches with
  | nil => simp [branchGroupDepth]
  | cons branch branches ih =>
    simp only [branchGroupDepth, Nat.max_le, listGroupDepth_le, ih, List.forall_mem_cons]

def Token.IsMember : Token → Prop
  | .literal _ | .category _ => True
  | .charRange lo hi => lo ≤ hi
  | _ => False

structure IsClass (items : List Token) : Prop where
  members : ∀ item ∈ items, item.IsMember
  nonempty : items ≠ []
  not_lone : ∀ c, items ≠ [.literal c]

def IsReference (name : String) : Prop :=
  GroupName.isIdentifier name.toList = true ∨ GroupName.isNumber name.toList = true

def Construct.IsProper : Construct → Prop
  | .backreference group | .conditional group => IsReference group
  | .lookaround _ _ | .negatedClass => True

/-- The leaves of a tree that was read from a pattern. -/
def ReadLeaf : Token → Prop
  | .literal _ | .anchor _ | .category _ | .wildcard => True
  | .charClass items => IsClass items
  | .unrendered construct => construct.IsProper
  | _ => False

end RegexTypeset
