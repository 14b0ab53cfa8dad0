import RegexTypeset.Slot
import RegexTypeset.Token

/-! # Pieces of a rendering

A token tree is laid out as a list of pieces: fragments of text for a slot, and marks
where a construct has no rendering or where a node is malformed. A mark stands in front
of everything that the node holds, so the marks are in the order in which the nodes
are met from the left. The layout knows no palette.
-/
namespace RegexTypeset

/-- What can be wrong with a node of a tree made by hand. -/
inductive Defect where
  | emptyClass
  | boundsReversed
  | tooFewBranches
deriving DecidableEq, Repr

def Defect.message : Defect → String
  | emptyClass => "empty character class"
  | boundsReversed => "repeat minimum exceeds maximum"
  | tooFewBranches => "alternation needs two branches"

inductive Piece where
  | text (slot : Slot) (raw : String)
  | leftOut (construct : Construct)
  | malformed (defect : Defect)
deriving DecidableEq, Repr

namespace Piece

def literalText : Char → String
  | '\t' => "\\t"
  | '\n' => "\\n"
  | '\r' => "\\r"
  | '\x0b' => "\\v"
  | '\x0c' => "\\f"
  | c => String.singleton c

def literal (c : Char) : Piece := text .literal (literalText c)

def count (n : Nat) : List Piece :=
  [text .repetitionBrace "\x7b", text .repetition (toString n), text .repetitionBrace "\x7d"]

def bracketedSpace : List Piece :=
  [text .charClass "[", text .literal " ", text .charClass "]"]

def bounds (min : UInt32) (max : Option UInt32) : List Piece :=
  match max with
  | none =>
    if min = 0 then [text .repetition "*"]
    else if min = 1 then [text .repetition "+"]
    else
      [text .repetitionBrace "\x7b", text .repetition (toString min.toNat), text .repetition ",",
       text .repetitionBrace "\x7d"]
  | some max =>
    if min = 0 ∧ max = 1 then [text .repetition "?"]
    else if min = max then count min.toNat
    else
      [text .repetitionBrace "\x7b", text .repetition (toString min.toNat), text .repetition ",",
       text .repetition (toString max.toNat), text .repetitionBrace "\x7d"]

def quantifier (q : Quantifier) : List Piece :=
  bounds q.min q.max ++ if q.isLazy then [text .repetition "?"] else []

def check (wrong : Bool) (defect : Defect) : List Piece :=
  if wrong then [malformed defect] else []

end Piece

namespace Quantifier

def isReversed (q : Quantifier) : Bool := q.max.any (· < q.min)

end Quantifier

namespace Token

/-- Members other than a single one that is no range stand in brackets. -/
def needsBrackets : List Token → Bool
  | [.charRange _ _] => true
  | [_] => false
  | _ => true

mutual

def pieces : Token → List Piece
  | .literal c => [Piece.literal c]
  | .anchor a => [.text .anchor a.symbol]
  | .group items => .text .group "(" :: listPieces items ++ [.text .group ")"]
  | .charClass items =>
    Piece.check items.isEmpty .emptyClass ++
      if needsBrackets items then .text .charClass "[" :: listPieces items ++ [.text .charClass "]"]
      else listPieces items
  | .charRange lo hi => [Piece.literal lo, .text .anchor "-", Piece.literal hi]
  | .category c => [.text .category c.symbol]
  | .repeated q body =>
    Piece.check q.isReversed .boundsReversed ++ pieces body ++ Piece.quantifier q
  | .alternation branches =>
    Piece.check (branches.length < 2) .tooFewBranches ++ branchPieces branches
  | .wildcard => [.text .wildcard "."]
  | .unrendered construct => [.leftOut construct]

def listPieces : List Token → List Piece
  | [] => []
  | token :: tokens => pieces token ++ listPieces tokens

def branchPieces : List (List Token) → List Piece
  | [] => []
  | [branch] => listPieces branch
  | branch :: branches => listPieces branch ++ .text .alternation "|" :: branchPieces branches

end

end Token

end RegexTypeset
