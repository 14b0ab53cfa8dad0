import Mathlib.Data.List.Basic
import Mathlib.Data.List.TakeWhile
import RegexTypeset.Proofs.PlainText

/-! # The first defect of a tree

A tree made by hand may hold nodes that are malformed and constructs that have no rendering,
at any depth and several of them. The marks among the pieces of a tree are those of its
nodes in the order in which they are met, each node before the ones below it. So a rendering
fails with the first node that it does not accept, and logs each construct that it leaves out.
-/
namespace RegexTypeset

namespace Token

mutual

/-- The nodes of a token: the token itself, then those below it from the left. -/
def nodes : Token → List Token
  | .group items => .group items :: listNodes items
  | .charClass items => .charClass items :: listNodes items
  | .repeated q body => .repeated q body :: nodes body
  | .alternation branches => .alternation branches :: branchNodes branches
  | token => [token]

def listNodes : List Token → List Token
  | [] => []
  | token :: tokens => nodes token ++ listNodes tokens

def branchNodes : List (List Token) → List Token
  | [] => []
  | branch :: branches => listNodes branch ++ branchNodes branches

end

def defect? : Token → Option Defect
  | .charClass items => if items.isEmpty then some .emptyClass else none
  | .repeated q _ => if q.isReversed then some .boundsReversed else none
  | .alternation branches => if branches.length < 2 then some .tooFewBranches else none
  | _ => none

def construct? : Token → Option Construct
  | .unrendered construct => some construct
  | _ => none

def error? (strict : Bool) : Token → Option RenderError
  | .unrendered construct => if strict then some (.unrendered construct) else none
  | token => token.defect?.map .malformed

theorem error?_lenient (node : Token) : node.error? false = node.defect?.map .malformed := by
  cases node <;> rfl

/-- The marks that a node puts among the pieces, apart from those of the nodes below it. -/
def marks : Token → List Piece
  | .charClass items => Piece.check items.isEmpty .emptyClass
  | .repeated q _ => Piece.check q.isReversed .boundsReversed
  | .alternation branches => Piece.check (branches.length < 2) .tooFewBranches
  | .unrendered construct => [.leftOut construct]
  | _ => []

end Token

namespace Piece

def marksOf (pieces : List Piece) : List Piece := pieces.filter (!·.isText)

@[simp] theorem marksOf_nil : marksOf [] = [] := rfl

@[simp] theorem marksOf_text (slot : Slot) (raw : String) (pieces : List Piece) :
    marksOf (.text slot raw :: pieces) = marksOf pieces := rfl

@[simp] theorem marksOf_append (s t : List Piece) : marksOf (s ++ t) = marksOf s ++ marksOf t :=
  List.filter_append ..

@[simp] theorem marksOf_check (wrong : Bool) (defect : Defect) :
    marksOf (check wrong defect) = check wrong defect := by
  cases wrong <;> rfl

@[simp] theorem marksOf_quantifier (q : Quantifier) : marksOf (quantifier q) = [] := by
  refine List.filter_eq_nil_iff.mpr fun piece hp => ?_
  simp [isText_of_mem_quantifier hp]

/-- What is nothing for text depends on the marks only. -/
theorem filterMap_marksOf {α : Type} {f : Piece → Option α}
    (hf : ∀ slot raw, f (.text slot raw) = none) (pieces : List Piece) :
    (marksOf pieces).filterMap f = pieces.filterMap f := by
  rw [marksOf, List.filterMap_filter]
  congr 1
  funext piece
  cases piece with
  | text slot raw => exact (hf slot raw).symm
  | leftOut => rfl
  | malformed => rfl

end Piece

namespace Token

mutual

/-- The marks among the pieces of a token are those of its nodes, in their order. -/
theorem marksOf_pieces : ∀ token : Token, Piece.marksOf token.pieces = token.nodes.flatMap marks
  | .literal _ | .anchor _ | .charRange _ _ | .category _ | .wildcard | .unrendered _ => by
    simp only [nodes, List.flatMap_singleton]
    rfl
  | .group items => by
    simp [pieces, nodes, marks, marksOf_listPieces items]
  | .charClass items => by
    rw [pieces, nodes, List.flatMap_cons, ← marksOf_listPieces items, Piece.marksOf_append]
    split <;> simp [marks]
  | .repeated q body => by
    simp [pieces, nodes, marks, marksOf_pieces body]
  | .alternation branches => by
    simp [pieces, nodes, marks, marksOf_branchPieces branches]

theorem marksOf_listPieces : ∀ tokens : List Token,
    Piece.marksOf (listPieces tokens) = (listNodes tokens).flatMap marks
  | [] => rfl
  | token :: tokens => by
    rw [listPieces, listNodes, Piece.marksOf_append, List.flatMap_append, marksOf_pieces token,
      marksOf_listPieces tokens]

theorem marksOf_branchPieces : ∀ branches : List (List Token),
    Piece.marksOf (branchPieces branches) = (branchNodes branches).flatMap marks
  | [] => rfl
  | [branch] => by
    rw [branchPieces, branchNodes, branchNodes, List.append_nil, marksOf_listPieces branch]
  | branch :: next :: branches => by
    rw [branchNodes, List.flatMap_append, ← marksOf_listPieces branch,
      ← marksOf_branchPieces (next :: branches)]
    simp [branchPieces]

end

/-- The first piece that gives something is a mark of the first node that has one. -/
theorem findSome?_listPieces {α : Type} {f : Piece → Option α}
    (hf : ∀ slot raw, f (.text slot raw) = none) (tokens : List Token) :
    (listPieces tokens).findSome? f =
      (listNodes tokens).findSome? fun node => node.marks.findSome? f := by
  rw [← List.head?_filterMap, ← Piece.filterMap_marksOf hf, marksOf_listPieces,
    List.filterMap_flatMap, List.head?_flatMap]
  simp only [List.head?_filterMap]

theorem findSome?_error? (strict : Bool) (tokens : List Token) :
    (listPieces tokens).findSome? (Piece.error? strict) =
      (listNodes tokens).findSome? (error? strict) := by
  have hm (node : Token) : node.marks.findSome? (Piece.error? strict) = node.error? strict := by
    cases node <;> simp only [marks, error?, defect?, Piece.check, decide_eq_true_eq]
    case unrendered construct => cases strict <;> rfl
    all_goals first | rfl | (split <;> rfl)
  rw [findSome?_listPieces fun _ _ => rfl]
  simp only [hm]

/-- The events of a tree are those of its constructs without a rendering, one each. -/
theorem filterMap_event? (tokens : List Token) :
    (listPieces tokens).filterMap Piece.event? =
      ((listNodes tokens).filterMap construct?).map .leftOut := by
  have hm (node : Token) :
      node.marks.filterMap Piece.event? = (node.construct?.map Event.leftOut).toList := by
    cases node <;> simp only [marks, construct?, Piece.check] <;> first | rfl | (split <;> rfl)
  rw [← Piece.filterMap_marksOf fun _ _ => rfl, marksOf_listPieces, List.filterMap_flatMap,
    List.map_filterMap, List.filterMap_eq_flatMap_toList]
  simp only [hm]

end Token

namespace Renderer

variable {r : Renderer} {pieces : List Piece} {out : String}

theorem renderPieces_eq_error {e : RenderError} :
    r.renderPieces pieces = .error e ↔ pieces.findSome? (Piece.error? r.strict) = some e := by
  rw [renderPieces]
  cases pieces.findSome? (Piece.error? r.strict) <;> simp

theorem renderTokens_eq_error {tokens : List Token} {e : RenderError} :
    r.renderTokens tokens = .error e ↔
      (Token.listNodes tokens).findSome? (Token.error? r.strict) = some e := by
  rw [renderTokens, renderPieces_eq_error, Token.findSome?_error?]

theorem error?_of_renderPieces (h : r.renderPieces pieces = .ok out) :
    ∀ piece ∈ pieces, piece.error? r.strict = none := by
  refine List.findSome?_eq_none_iff.mp ?_
  cases hf : pieces.findSome? (Piece.error? r.strict) with
  | none => rfl
  | some e => cases h.symm.trans (renderPieces_eq_error.mpr hf)

/-- A rendering that does not fail logs each piece that is left out. -/
theorem pieceEvents_of_renderPieces (h : r.renderPieces pieces = .ok out) :
    r.pieceEvents pieces = pieces.filterMap Piece.event? := by
  have hw : (pieces.takeWhile fun piece => (piece.error? r.strict).isNone) = pieces :=
    List.takeWhile_eq_self_iff.mpr fun piece hp => by
      rw [error?_of_renderPieces h piece hp]
      rfl
  rw [pieceEvents, hw]

/-- What a strict rendering accepts, one that is not strict renders alike. -/
theorem renderPieces_of_strict {palette : Palette}
    (h : (Renderer.mk palette true).renderPieces pieces = .ok out) :
    (Renderer.mk palette false).renderPieces pieces = .ok out := by
  have hs := error?_of_renderPieces h
  have hl : ∀ piece ∈ pieces, piece.error? false = none := by
    intro piece hp
    cases piece with
    | text => rfl
    | leftOut => rfl
    | malformed defect => cases hs _ hp
  rw [renderPieces_of_error? hl]
  exact (renderPieces_of_error? hs palette).symm.trans h

/-- A rendering fails with the first node, outer ones before inner ones and from the left, that
is malformed, or that has no rendering if it is strict. Where both do not fail they agree, and
without strictness each construct that has no rendering is logged once, in this order. -/
theorem renderTokens_nodes (palette : Palette) (tokens : List Token) :
    let lenient : Renderer := ⟨palette, false⟩
    let strict : Renderer := ⟨palette, true⟩
    let nodes := Token.listNodes tokens
    (∀ e, lenient.renderTokens tokens = .error e ↔
      (nodes.findSome? fun node => node.defect?.map .malformed) = some e) ∧
    (∀ e, strict.renderTokens tokens = .error e ↔ nodes.findSome? (Token.error? true) = some e) ∧
    (∀ out, strict.renderTokens tokens = .ok out → lenient.renderTokens tokens = .ok out) ∧
    ∀ out, lenient.renderTokens tokens = .ok out →
      lenient.tokenEvents tokens = (nodes.filterMap Token.construct?).map .leftOut := by
  intro lenient strict nodes
  refine ⟨fun e => ?_, fun e => renderTokens_eq_error, fun out h => renderPieces_of_strict h,
    fun out h => ?_⟩
  · simp only [← Token.error?_lenient]
    exact renderTokens_eq_error
  · exact (pieceEvents_of_renderPieces h).trans (Token.filterMap_event? tokens)

/-- A reference stands before a class without members, which is repeated with bounds in the
wrong order: a strict rendering stops at the first one, the other one at the repetition. -/
theorem renderTokens_nodes_nested :
    let construct : Construct := .backreference "1"
    let wrong : List Token :=
      [.group [.unrendered construct, .repeated ⟨2, some 1, false⟩ (.charClass [])]]
    let left : List Token := [.charClass [.literal 'a', .unrendered construct], .wildcard]
    (Renderer.mk .plain false).renderTokens wrong = .error (.malformed .boundsReversed) ∧
      (Renderer.mk .plain true).renderTokens wrong = .error (.unrendered construct) ∧
      (Renderer.mk .plain false).renderTokens left = .ok "[a]." ∧
      (Renderer.mk .plain false).tokenEvents left = [.leftOut construct] ∧
      (Renderer.mk .plain true).renderTokens [.wildcard] = .ok "." ∧
      (Renderer.mk .plain false).renderTokens [.wildcard] = .ok "." := by
  intro construct wrong left
  obtain ⟨hlenient, hstrict, -, -⟩ := renderTokens_nodes .plain wrong
  obtain ⟨-, -, -, hlog⟩ := renderTokens_nodes .plain left
  obtain ⟨-, -, hagree, -⟩ := renderTokens_nodes .plain [.wildcard]
  have hleft : (Renderer.mk .plain false).renderTokens left = .ok "[a]." := rfl
  have hstrictly : (Renderer.mk .plain true).renderTokens [.wildcard] = .ok "." := rfl
  exact ⟨(hlenient _).mpr rfl, (hstrict _).mpr rfl, hleft, hlog _ hleft, hstrictly,
    hagree _ hstrictly⟩

end Renderer

end RegexTypeset
