import Mathlib.Control.Monad.Basic
import RegexTypeset.Token

/-! # Equality of token trees

A tree holds lists of trees, so its equality is decided by three functions that follow
the structure together. The instance is scoped: it serves to evaluate a reading of one
text, and would slow down case splits on trees elsewhere.
-/
namespace RegexTypeset

mutual

def Token.same : Token → Token → Bool
  | .literal c, .literal d => c = d
  | .anchor a, .anchor b => a = b
  | .group items, .group others => listSame items others
  | .charClass items, .charClass others => listSame items others
  | .charRange lo hi, .charRange lo' hi' => lo = lo' ∧ hi = hi'
  | .category c, .category d => c = d
  | .repeated q body, .repeated r other => q = r && Token.same body other
  | .alternation branches, .alternation others => branchSame branches others
  | .wildcard, .wildcard => true
  | .unrendered construct, .unrendered other => construct = other
  | _, _ => false

def listSame : List Token → List Token → Bool
  | [], [] => true
  | token :: tokens, other :: others => Token.same token other && listSame tokens others
  | _, _ => false

def branchSame : List (List Token) → List (List Token) → Bool
  | [], [] => true
  | branch :: branches, other :: others => listSame branch other && branchSame branches others
  | _, _ => false

end

mutual

theorem Token.same_iff : ∀ a b : Token, a.same b = true ↔ a = b
  | .group items, b => by cases b <;> simp [Token.same, listSame_iff items]
  | .charClass items, b => by cases b <;> simp [Token.same, listSame_iff items]
  | .repeated q body, b => by cases b <;> simp [Token.same, Token.same_iff body]
  | .alternation branches, b => by cases b <;> simp [Token.same, branchSame_iff branches]
  | .literal _, b | .anchor _, b | .charRange _ _, b | .category _, b | .wildcard, b
  | .unrendered _, b => by cases b <;> simp [Token.same]

theorem listSame_iff : ∀ s t : List Token, listSame s t = true ↔ s = t
  | [], t => by cases t <;> simp [listSame]
  | token :: tokens, t => by cases t <;> simp [listSame, Token.same_iff token, listSame_iff tokens]

theorem branchSame_iff : ∀ s t : List (List Token), branchSame s t = true ↔ s = t
  | [], t => by cases t <;> simp [branchSame]
  | branch :: branches, t => by
    cases t <;> simp [branchSame, listSame_iff branch, branchSame_iff branches]

end

namespace TreeEquality

scoped instance : DecidableEq Token := fun a b => decidable_of_iff _ (Token.same_iff a b)

end TreeEquality

end RegexTypeset
