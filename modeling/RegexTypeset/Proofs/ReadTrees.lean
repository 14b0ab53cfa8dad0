import RegexTypeset.Proofs.PlainText
import RegexTypeset.Proofs.ProperLexemes
import RegexTypeset.Proofs.ReadingSteps
import RegexTypeset.Proofs.TreeEquality
import RegexTypeset.Renderer

/-! # The trees that a reading returns

Every step of a reading keeps the open groups right: they hold items over proper leaves,
the deeper inside the less deep. So a reading returns content over such leaves, nested as
deep as groups may be, and a rendering of it meets no malformed node.
-/
namespace RegexTypeset

def Fits (d : Nat) (token : Token) : Prop := Item ReadLeaf token ∧ token.groupDepth ≤ d

theorem Fits.leaf {d : Nat} {token : Token} (h : ReadLeaf token) : Fits d token := by
  have hz : token.groupDepth = 0 := by
    cases token <;> simp only [ReadLeaf] at h <;> simp only [Token.groupDepth]
    case charClass items =>
      refine Nat.le_zero.mp (listGroupDepth_le.mpr fun item hi => ?_)
      have hm := h.members item hi
      cases item <;> simp only [Token.IsMember] at hm <;> simp [Token.groupDepth]
  exact ⟨.leaf h, by omega⟩

structure Alternatives.Fit (d : Nat) (a : Alternatives) : Prop where
  items : ∀ token ∈ a.items, Fits d token
  branches : ∀ branch ∈ a.branches, ∀ token ∈ branch, Fits d token

namespace Alternatives

variable {a : Alternatives} {d : Nat}

theorem fit_empty (d : Nat) : Fit d empty :=
  ⟨fun _ h => absurd h (List.not_mem_nil), fun _ h => absurd h (List.not_mem_nil)⟩

theorem Fit.add (h : a.Fit d) {token : Token} (ht : Fits d token) : (a.add token).Fit d := by
  refine ⟨fun t hm => ?_, h.branches⟩
  rcases List.mem_cons.mp hm with rfl | hm
  · exact ht
  · exact h.items t hm

theorem Fit.split (h : a.Fit d) : a.split.Fit d := by
  refine ⟨fun t hm => absurd hm (List.not_mem_nil), fun b hb => ?_⟩
  rcases List.mem_cons.mp hb with rfl | hb
  · exact fun t hm => h.items t (List.mem_reverse.mp hm)
  · exact h.branches b hb

/-- A quantifier in order makes one item of another one. -/
theorem Fit.quantify (h : a.Fit d) {q : Quantifier} (hq : q.isReversed = false) {b : Alternatives}
    (hb : a.quantify q = .ok b) : b.Fit d := by
  rcases a with ⟨branches, _ | ⟨body, items⟩⟩
  · cases hb
  · obtain ⟨hi, hd⟩ := h.items body List.mem_cons_self
    have hr : body.isRepeatable = true ∧ b = ⟨branches, .repeated q body :: items⟩ := by
      cases hi with
      | leaf hl =>
        cases body <;> simp only [ReadLeaf] at hl <;> simp only [Alternatives.quantify] at hb <;>
          cases hb <;> exact ⟨rfl, rfl⟩
      | group => cases hb; exact ⟨rfl, rfl⟩
      | repeated => cases hb
    obtain ⟨hr, rfl⟩ := hr
    refine ⟨fun t hm => ?_, h.branches⟩
    rcases List.mem_cons.mp hm with rfl | hm
    · exact ⟨.repeated hq hr hi, by simpa [Token.groupDepth] using hd⟩
    · exact h.items t (List.mem_cons_of_mem _ hm)

/-- What was read is content over proper leaves. -/
theorem Fit.tokens (h : a.Fit d) : Content ReadLeaf a.tokens ∧ listGroupDepth a.tokens ≤ d := by
  have hi : ∀ token ∈ a.items.reverse, Fits d token := fun t hm => h.items t (List.mem_reverse.mp hm)
  rcases a with ⟨_ | ⟨branch, branches⟩, items⟩
  · rw [tokens_single]
    exact ⟨.sequence fun t hm => (hi t hm).1, listGroupDepth_le.mpr fun t hm => (hi t hm).2⟩
  · have hb : ∀ b ∈ (branch :: branches).reverse ++ [items.reverse], ∀ t ∈ b, Fits d t := by
      intro b hm
      rcases List.mem_append.mp hm with hm | hm
      · exact h.branches b (List.mem_reverse.mp hm)
      · exact List.mem_singleton.mp hm ▸ hi
    rw [tokens_several (List.cons_ne_nil _ _)]
    constructor
    · exact .alternation (by simp) fun b hm t ht => (hb b hm t ht).1
    · have hd := branchGroupDepth_le.mpr fun b hm t ht => (hb b hm t ht).2
      simpa [listGroupDepth, Token.groupDepth] using hd

end Alternatives

namespace Nesting

def GroupsFit : List OpenGroup → Prop
  | [] => True
  | group :: groups =>
    group.kind.IsProper ∧ group.around.Fit (maxDepth - groups.length) ∧ GroupsFit groups

/-- All that was read fits, and no group is open beyond the greatest depth. -/
structure Fit (n : Nesting) : Prop where
  current : n.current.Fit (maxDepth - n.depth)
  groups : GroupsFit n.groups
  shallow : n.depth ≤ maxDepth

theorem fit_start (flags : Flags) : (start flags).Fit :=
  ⟨Alternatives.fit_empty _, trivial, Nat.zero_le _⟩

/-- The token of a group fits around it. -/
theorem fits_token {kind : GroupKind} (hk : kind.IsProper) {items : List Token} {d : Nat}
    (hc : Content ReadLeaf items) (hd : listGroupDepth items ≤ d) : Fits (d + 1) (kind.token items) := by
  cases kind with
  | plain => exact ⟨.group hc, Nat.succ_le_succ hd⟩
  | flagged => exact ⟨.group hc, Nat.succ_le_succ hd⟩
  | unrendered => exact Fits.leaf hk

/-- Every step keeps the open groups right. -/
theorem Step.fit {n n' : Nesting} {c : Char} {rest rest' : List Char} {lexeme : Lexeme}
    (h : Step n c rest lexeme n' rest') (hn : n.Fit) : n'.Fit := by
  have hp := Lexeme.isProper_of_read h.reads
  have he := h.effect
  cases lexeme with
  | filler => cases he; exact hn
  | item token => cases he; exact ⟨hn.current.add (Fits.leaf hp), hn.groups, hn.shallow⟩
  | flags added => cases he; exact ⟨hn.current, hn.groups, hn.shallow⟩
  | bar => cases he; exact ⟨hn.current.split, hn.groups, hn.shallow⟩
  | opening kind =>
    have hd : n.depth < maxDepth := h.shallow (Lexeme.eq_of_opening h.reads)
    cases he
    exact ⟨Alternatives.fit_empty _, ⟨hp, hn.current, hn.groups⟩, hd⟩
  | closing =>
    obtain ⟨group, groups, hgs, rfl⟩ := exists_group_of_push he
    rcases n with ⟨scope, global, current, _⟩
    obtain rfl : _ = group :: groups := hgs
    obtain ⟨hk, ha, hg⟩ := hn.groups
    have hs : groups.length + 1 ≤ maxDepth := hn.shallow
    obtain ⟨ht, hd⟩ := hn.current.tokens
    have hm : maxDepth - (groups.length + 1) + 1 = maxDepth - groups.length := by omega
    have hf : Fits (maxDepth - groups.length) (group.kind.token current.tokens) :=
      hm ▸ fits_token hk ht hd
    exact ⟨ha.add hf, hg, Nat.le_of_succ_le hs⟩
  | quantifier q =>
    obtain ⟨current, hq, rfl⟩ := exists_quantify_of_push he
    exact ⟨hn.current.quantify hp hq, hn.groups, hn.shallow⟩

end Nesting

namespace Pattern

variable {text : List Char} {flags found : Flags} {tokens : List Token}

theorem content_of_readOnce (h : readOnce text flags = .ok (tokens, found)) :
    Content ReadLeaf tokens ∧ listGroupDepth tokens ≤ Nesting.maxDepth := by
  obtain ⟨m, hr, hg, rfl, -⟩ := readOnce_eq_ok.mp h
  have hm : m.Fit := Nesting.read_keeps Nesting.Step.fit hr (Nesting.fit_start flags)
  have hz : m.depth = 0 := by rw [Nesting.depth, hg]; rfl
  have ht := hm.current.tokens
  rwa [hz] at ht

theorem content_of_read (h : read text flags = .ok (tokens, found)) :
    Content ReadLeaf tokens ∧ listGroupDepth tokens ≤ Nesting.maxDepth := by
  simp only [read] at h
  split at h
  case h_1 => cases h
  case h_2 ho =>
    split at h
    case isTrue => exact content_of_readOnce h
    case isFalse => cases h; exact content_of_readOnce ho

theorem content_of_compile {text : String} {pattern : Pattern}
    (h : compile text flags = .ok pattern) : Content ReadLeaf pattern.tokens := by
  simp only [compile] at h
  split at h
  case h_1 => cases h
  case h_2 hr => cases h; exact (content_of_read hr).1

end Pattern

theorem not_malformed_of_readLeaf {token : Token} (h : ReadLeaf token) (defect : Defect) :
    ∀ p ∈ token.pieces, p ≠ .malformed defect := by
  intro p hp hd
  subst hd
  cases token <;> simp only [ReadLeaf] at h
  case charClass items => cases Token.isText_of_mem_charClass h.members h.nonempty hp
  all_goals simp [Token.pieces, Piece.literal] at hp

theorem not_malformed_of_content {items : List Token} (h : Content ReadLeaf items)
    (defect : Defect) : .malformed defect ∉ Token.listPieces items := by
  intro hm
  exact pieces_of_content (fun p hp hd => by cases hd ▸ hp)
    (fun _ hl => not_malformed_of_readLeaf hl defect) h _ hm rfl

/-- Content stays content when edges are cut off that are there. -/
theorem content_cut {items : List Token} (h : Content ReadLeaf items) (shown : EdgeSpaces) :
    Content ReadLeaf ((Sample.hidden shown items).cut items) := by
  cases h with
  | sequence h =>
    refine .sequence fun token ht => h token ?_
    exact List.mem_of_mem_drop (List.mem_of_mem_take ht)
  | @alternation branches hl h =>
    have hz : Sample.hidden shown [.alternation branches] = .none := by
      simp [Sample.hidden, EdgeSpaces.ofTokens, Token.isSpace, EdgeSpaces.none]
    rw [hz]
    exact .alternation hl h

namespace Renderer

theorem renderPieces_ne_malformed (r : Renderer) {pieces : List Piece} {defect : Defect}
    (h : .malformed defect ∉ pieces) : r.renderPieces pieces ≠ .error (.malformed defect) := by
  intro hr
  simp only [renderPieces] at hr
  split at hr
  case h_2 => cases hr
  case h_1 e he =>
    cases hr
    obtain ⟨piece, hp, hd⟩ := List.exists_of_findSome?_eq_some he
    cases piece with
    | text slot raw => cases hd
    | leftOut construct =>
      simp only [Piece.error?] at hd
      split at hd <;> cases hd
    | malformed => cases hd; exact h hp

theorem renderText_ne_malformed (r : Renderer) (text : String) (flags : Flags) (defect : Defect) :
    r.renderText text flags ≠ .error (.malformed defect) := by
  intro hr
  simp only [renderText, Sample.ofText] at hr
  split at hr
  case h_1 => cases hr
  case h_2 sample hs =>
    split at hs
    case h_1 => cases hs
    case h_2 pattern hc =>
      cases hs
      have ht := not_malformed_of_content
        (content_cut (Pattern.content_of_compile hc) (Sample.shown text pattern.flags)) defect
      refine renderPieces_ne_malformed r (fun hm => ?_) hr
      simp only [Sample.pieces, List.mem_append] at hm
      rcases hm with (hm | hm) | hm
      · cases isText_leadingPieces _ _ hm
      · exact ht hm
      · cases isText_trailingPieces _ _ hm

end Renderer

/-- A pattern is read as content over proper leaves, and no text or pattern is rendered as a
malformed tree. -/
theorem content_of_reading :
    (∀ (text : List Char) (flags found : Flags) (tokens : List Token),
      Pattern.read text flags = .ok (tokens, found) →
        Content ReadLeaf tokens ∧ listGroupDepth tokens ≤ Nesting.maxDepth) ∧
    (∀ (r : Renderer) (text : String) (flags : Flags) (defect : Defect),
      r.renderText text flags ≠ .error (.malformed defect)) ∧
    (∀ (r : Renderer) (pattern : Pattern) (defect : Defect),
      r.renderPattern pattern ≠ .error (.malformed defect)) :=
  ⟨fun _ _ _ _ h => Pattern.content_of_read h, Renderer.renderText_ne_malformed,
    fun r pattern => r.renderText_ne_malformed pattern.text pattern.flags⟩

section

open scoped TreeEquality

theorem content_of_reading_class :
    Content ReadLeaf [.group [.alternation [[.literal 'a'],
        [.repeated ⟨2, some 3, true⟩ (.charClass [.literal ']', .charRange 'b' 'd'])]]],
      .unrendered (.backreference "x")] ∧
    listGroupDepth [.group [.alternation [[.literal 'a'],
        [.repeated ⟨2, some 3, true⟩ (.charClass [.literal ']', .charRange 'b' 'd'])]]],
      .unrendered (.backreference "x")] ≤ Nesting.maxDepth :=
  content_of_reading.1 "(?P<x>a|[]b-d]{2,3}?)(?P=x)".toList ∅ ∅ _ (by decide +kernel)

end

end RegexTypeset
