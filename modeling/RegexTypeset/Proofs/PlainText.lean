import RegexTypeset.Proofs.TreeShape
import RegexTypeset.Renderer

/-! # Renderings as plain text

Without a style a rendering is the text of its pieces, one after the other. What holds of
all fragments of text and of the pieces of the leaves holds of all pieces of a tree
whose shape is right, so a tree with unmarked leaves has a plain rendering.
-/
namespace RegexTypeset

def Piece.raw : Piece → List Char
  | text _ raw => raw.toList
  | _ => []

def Piece.isText : Piece → Bool
  | text _ _ => true
  | _ => false

def shownIn (palette : Palette) (pieces : List Piece) : List Char :=
  pieces.flatMap fun piece => (piece.styled palette).toList

theorem shownIn_plain (pieces : List Piece) : shownIn .plain pieces = pieces.flatMap Piece.raw := by
  have hr : (fun piece : Piece => (piece.styled .plain).toList) = Piece.raw := by
    funext piece
    cases piece <;> rfl
  rw [shownIn, hr]

/-- Pieces that are no error are rendered as what is shown of them. -/
theorem renderPieces_of_error? {strict : Bool} {pieces : List Piece}
    (h : ∀ p ∈ pieces, p.error? strict = none) (palette : Palette) :
    (Renderer.mk palette strict).renderPieces pieces =
      .ok (palette.wrap (String.ofList (shownIn palette pieces))) := by
  have hf : pieces.findSome? (Piece.error? strict) = none := List.findSome?_eq_none_iff.mpr h
  have ht : (String.join (pieces.map (Piece.styled palette))).toList = shownIn palette pieces := by
    rw [String.toList_join, List.flatMap_map]
    rfl
  simp only [Renderer.renderPieces, hf]
  rw [← ht, String.ofList_toList]

/-- Whether and how pieces fail does not depend on the palette. -/
theorem renderPieces_cases (strict : Bool) (pieces : List Piece) :
    (∃ e, ∀ palette, (Renderer.mk palette strict).renderPieces pieces = .error e) ∨
      ∀ palette, (Renderer.mk palette strict).renderPieces pieces =
        .ok (palette.wrap (String.ofList (shownIn palette pieces))) := by
  cases hf : pieces.findSome? (Piece.error? strict) with
  | some e => exact Or.inl ⟨e, fun palette => by simp only [Renderer.renderPieces, hf]⟩
  | none => exact Or.inr (renderPieces_of_error? (List.findSome?_eq_none_iff.mp hf))

/-- For the plain target they are rendered as their text. -/
theorem renderPieces_plain_of_error? {strict : Bool} {pieces : List Piece}
    (h : ∀ p ∈ pieces, p.error? strict = none) :
    (Renderer.ofTarget .plain strict).renderPieces pieces =
      .ok (String.ofList (pieces.flatMap Piece.raw)) := by
  rw [← shownIn_plain]
  exact renderPieces_of_error? h .plain

/-- Fragments of text are rendered for the plain target as they are. -/
theorem renderPieces_plain (strict : Bool) {pieces : List Piece} (h : ∀ p ∈ pieces, p.isText) :
    (Renderer.ofTarget .plain strict).renderPieces pieces =
      .ok (String.ofList (pieces.flatMap Piece.raw)) := by
  refine renderPieces_plain_of_error? fun p hp => ?_
  have hp := h p hp
  cases p <;> first | rfl | cases hp

theorem Piece.isText_of_mem_quantifier {q : Quantifier} {piece : Piece}
    (h : piece ∈ Piece.quantifier q) : piece.isText = true := by
  have ht : ∀ piece ∈ Piece.quantifier q, piece.isText = true := by
    rw [← List.all_eq_true, Piece.quantifier, List.all_append, Bool.and_eq_true]
    unfold Piece.bounds
    constructor
    · repeat' split
      all_goals rfl
    · split <;> rfl
  exact ht piece h

theorem isText_leadingPieces (n : Nat) : ∀ p ∈ Sample.leadingPieces n, p.isText = true := by
  rw [← List.all_eq_true]
  rcases n with _ | _ | n <;> rfl

theorem isText_trailingPieces (n : Nat) : ∀ p ∈ Sample.trailingPieces n, p.isText = true := by
  rw [← List.all_eq_true]
  rcases n with _ | _ | n <;> rfl

namespace Token

theorem mem_listPieces {piece : Piece} {tokens : List Token} :
    piece ∈ listPieces tokens ↔ ∃ token ∈ tokens, piece ∈ token.pieces := by
  induction tokens with
  | nil => simp [listPieces]
  | cons token tokens ih => simp [listPieces, ih]

/-- A piece of branches is a bar or a piece of one of their tokens. -/
theorem mem_branchPieces {piece : Piece} {branches : List (List Token)}
    (h : piece ∈ branchPieces branches) :
    piece.isText = true ∨ ∃ branch ∈ branches, piece ∈ listPieces branch := by
  induction branches with
  | nil => simp [branchPieces] at h
  | cons branch branches ih =>
    cases branches with
    | nil => exact Or.inr ⟨branch, by simp, h⟩
    | cons next branches =>
      simp only [branchPieces, List.mem_append, List.mem_cons] at h
      rcases h with h | rfl | h
      · exact Or.inr ⟨branch, by simp, h⟩
      · exact Or.inl rfl
      · rcases ih h with h | ⟨b, hb, h⟩
        · exact Or.inl h
        · exact Or.inr ⟨b, List.mem_cons_of_mem _ hb, h⟩

/-- The members of a class are fragments of text, and so is a class that has members. -/
theorem isText_of_mem_charClass {items : List Token} (hm : ∀ item ∈ items, item.IsMember)
    (hn : items ≠ []) {piece : Piece} (h : piece ∈ (charClass items).pieces) :
    piece.isText = true := by
  have he : items.isEmpty = false := by simpa using hn
  have hi : ∀ piece ∈ listPieces items, piece.isText = true := by
    intro piece hp
    obtain ⟨item, hi, hp⟩ := mem_listPieces.mp hp
    have hm := hm item hi
    cases item <;> simp only [IsMember] at hm <;> simp only [pieces, List.mem_cons,
      List.not_mem_nil, or_false] at hp
    case literal => exact hp ▸ rfl
    case category => exact hp ▸ rfl
    case charRange => rcases hp with rfl | rfl | rfl <;> rfl
  simp only [pieces, he, Piece.check, Bool.false_eq_true, if_false, List.nil_append] at h
  split at h
  case isTrue =>
    simp only [List.cons_append, List.mem_cons, List.mem_append, List.not_mem_nil, or_false] at h
    rcases h with rfl | h | rfl
    · rfl
    · exact hi piece h
    · rfl
  case isFalse => exact hi piece h

end Token

section
variable {leaf : Token → Prop} {good : Piece → Prop}

mutual

theorem pieces_of_item (text : ∀ p : Piece, p.isText = true → good p)
    (leaves : ∀ token, leaf token → ∀ p ∈ token.pieces, good p) {token : Token} :
    Item leaf token → ∀ p ∈ token.pieces, good p
  | .leaf h => leaves _ h
  | .group h => by
    intro p hp
    simp only [Token.pieces, List.cons_append, List.mem_cons, List.mem_append,
      List.not_mem_nil, or_false] at hp
    rcases hp with rfl | hp | rfl
    · exact text _ rfl
    · exact pieces_of_content text leaves h p hp
    · exact text _ rfl
  | .repeated hq _ h => by
    intro p hp
    simp only [Token.pieces, hq, Piece.check, Bool.false_eq_true, if_false, List.nil_append,
      List.mem_append] at hp
    rcases hp with hp | hp
    · exact pieces_of_item text leaves h p hp
    · exact text p (Piece.isText_of_mem_quantifier hp)

theorem pieces_of_content (text : ∀ p : Piece, p.isText = true → good p)
    (leaves : ∀ token, leaf token → ∀ p ∈ token.pieces, good p) {items : List Token} :
    Content leaf items → ∀ p ∈ Token.listPieces items, good p
  | .sequence h => by
    intro p hp
    obtain ⟨token, ht, hp⟩ := Token.mem_listPieces.mp hp
    exact pieces_of_item text leaves (h token ht) p hp
  | .alternation hl h => by
    intro p hp
    simp only [Token.listPieces, Token.pieces, Nat.not_lt.mpr hl, decide_false, Piece.check,
      Bool.false_eq_true, if_false, List.nil_append, List.append_nil] at hp
    rcases Token.mem_branchPieces hp with hp | ⟨branch, hb, hp⟩
    · exact text p hp
    · obtain ⟨token, ht, hp⟩ := Token.mem_listPieces.mp hp
      exact pieces_of_item text leaves (h branch hb token ht) p hp

end

end

end RegexTypeset
