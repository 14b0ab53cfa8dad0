import RegexTypeset.Proofs.ReadTrees
import RegexTypeset.Proofs.RoundTrip

/-! # Constructs that a rendering leaves out

A construct without a rendering leaves no text, but a quantifier applied to it does. The
erased tree has neither. So its text is a part of the text of the whole tree, and all of
it exactly if no such construct is repeated.
-/
namespace RegexTypeset

theorem renderPieces_lenient {pieces : List Piece} (h : ∀ defect, .malformed defect ∉ pieces) :
    (Renderer.ofTarget .plain false).renderPieces pieces =
      .ok (String.ofList (pieces.flatMap Piece.raw)) := by
  refine renderPieces_plain_of_error? fun p hp => ?_
  cases p with
  | text slot raw => rfl
  | leftOut construct => rfl
  | malformed defect => exact absurd hp (h defect)

/-- A tree that was read is rendered as its text. -/
theorem renderTokens_lenient {tokens : List Token} (h : Content ReadLeaf tokens) :
    (Renderer.ofTarget .plain false).renderTokens tokens =
      .ok (String.ofList (Token.listShown tokens)) :=
  renderPieces_lenient (not_malformed_of_content h)

namespace Token

def isLeftOut : Token → Bool
  | .unrendered _ => true
  | .repeated _ body => isLeftOut body
  | _ => false

mutual

def erased : Token → Token
  | .group items => .group (listErased items)
  | .charClass items => .charClass (listErased items)
  | .repeated q body => .repeated q (erased body)
  | .alternation branches => .alternation (branchErased branches)
  | token => token

/-- Tokens in sequence without those that are left out, their quantifiers included. -/
def listErased : List Token → List Token
  | [] => []
  | token :: tokens =>
    if token.isLeftOut then listErased tokens else erased token :: listErased tokens

def branchErased : List (List Token) → List (List Token)
  | [] => []
  | branch :: branches => listErased branch :: branchErased branches

end

mutual

def repeatsLeftOut : Token → Bool
  | .group items => listRepeatsLeftOut items
  | .charClass items => listRepeatsLeftOut items
  | .repeated _ body => body.isLeftOut || repeatsLeftOut body
  | .alternation branches => branchRepeatsLeftOut branches
  | _ => false

def listRepeatsLeftOut : List Token → Bool
  | [] => false
  | token :: tokens => repeatsLeftOut token || listRepeatsLeftOut tokens

def branchRepeatsLeftOut : List (List Token) → Bool
  | [] => false
  | branch :: branches => listRepeatsLeftOut branch || branchRepeatsLeftOut branches

end

theorem listErased_cons (token : Token) (tokens : List Token) :
    listErased (token :: tokens) =
      (if token.isLeftOut then [] else [token.erased]) ++ listErased tokens := by
  rw [listErased]
  split <;> rfl

theorem exists_of_mem_listErased {token : Token} {tokens : List Token}
    (h : token ∈ listErased tokens) : ∃ whole ∈ tokens, token = whole.erased := by
  induction tokens with
  | nil => cases h
  | cons first tokens ih =>
    rw [listErased_cons, List.mem_append] at h
    rcases h with h | h
    · refine ⟨first, List.mem_cons_self, ?_⟩
      split at h
      case isTrue => cases h
      case isFalse => exact List.mem_singleton.mp h
    · obtain ⟨whole, hw, he⟩ := ih h
      exact ⟨whole, List.mem_cons_of_mem _ hw, he⟩

theorem branchErased_eq_map (branches : List (List Token)) :
    branchErased branches = branches.map listErased := by
  induction branches with
  | nil => rfl
  | cons branch branches ih => rw [branchErased, ih, List.map_cons]

theorem isRepeatable_erased (token : Token) : token.erased.isRepeatable = token.isRepeatable := by
  cases token <;> simp [erased, isRepeatable]

/-- Nothing in a class is left out. -/
theorem listErased_members {items : List Token} (h : ∀ item ∈ items, item.IsMember) :
    listErased items = items ∧ listRepeatsLeftOut items = false := by
  induction items with
  | nil => exact ⟨rfl, rfl⟩
  | cons item items ih =>
    obtain ⟨hi, hs⟩ := List.forall_mem_cons.mp h
    obtain ⟨he, hr⟩ := ih hs
    cases item <;> simp only [IsMember] at hi <;>
      simp [listErased, listRepeatsLeftOut, isLeftOut, erased, repeatsLeftOut, he, hr]

/-- A leaf is left out, or nothing in it is. -/
theorem erased_leaf {token : Token} (h : ReadLeaf token) :
    token.erased = token ∧ token.repeatsLeftOut = false ∧
      (token.isLeftOut = true → token.shown = []) := by
  cases token <;> simp only [ReadLeaf] at h
  case charClass items =>
    obtain ⟨he, hr⟩ := listErased_members h.members
    exact ⟨by rw [erased, he], hr, fun hl => by cases hl⟩
  all_goals exact ⟨rfl, rfl, fun hl => by first | rfl | cases hl⟩

end Token

open Token

mutual

theorem item_erased {token : Token} : Item ReadLeaf token → Item ReadLeaf token.erased
  | .leaf h => by
    rw [(erased_leaf h).1]
    exact .leaf h
  | .group h => .group (content_erased h)
  | .repeated hq hr h => .repeated hq (by rwa [isRepeatable_erased]) (item_erased h)

/-- Content that was read is content without what is left out. -/
theorem content_erased {items : List Token} : Content ReadLeaf items →
    Content ReadLeaf (listErased items)
  | .sequence h => by
    refine .sequence fun token ht => ?_
    obtain ⟨whole, hw, rfl⟩ := exists_of_mem_listErased ht
    exact item_erased (h whole hw)
  | .alternation hl h => by
    refine .alternation (by simpa [branchErased_eq_map] using hl) fun branch hb token ht => ?_
    rw [branchErased_eq_map, List.mem_map] at hb
    obtain ⟨wide, hw, rfl⟩ := hb
    obtain ⟨whole, hm, rfl⟩ := exists_of_mem_listErased ht
    exact item_erased (h wide hw whole hm)

end

/-- A part of a text, and all of it unless something is lost. -/
structure PartOf (part text : List Char) (lossy : Bool) : Prop where
  sublist : part.Sublist text
  eq_iff : part = text ↔ lossy = false

namespace PartOf

variable {part part' text text' : List Char} {lossy lossy' : Bool}

theorem whole (text : List Char) : PartOf text text false := ⟨List.Sublist.refl text, by simp⟩

theorem append (h : PartOf part text lossy) (h' : PartOf part' text' lossy') :
    PartOf (part ++ part') (text ++ text') (lossy || lossy') := by
  refine ⟨h.sublist.append h'.sublist, ?_⟩
  rw [Bool.or_eq_false_iff, ← h.eq_iff, ← h'.eq_iff]
  constructor
  · intro he
    have hl := h.sublist.length_le
    have hl' := h'.sublist.length_le
    have hs := congrArg List.length he
    rw [List.length_append, List.length_append] at hs
    exact List.append_inj he (by omega)
  · rintro ⟨rfl, rfl⟩
    rfl

/-- What is lost as a whole is lost unless it is empty. -/
theorem nothing (h : text ≠ []) : PartOf [] text true :=
  ⟨List.nil_sublist text, by simpa using h.symm⟩

end PartOf

theorem quantifier_ne_nil {q : Quantifier} (h : q.isReversed = false) :
    (Piece.quantifier q).flatMap Piece.raw ≠ [] := by
  obtain ⟨c, text, hc, -⟩ := @Lexeme.solid_quantifier q h [] (Or.inr (by simp))
  rw [hc]
  exact List.cons_ne_nil _ _

def Token.erasedShown (token : Token) : List Char :=
  if token.isLeftOut then [] else token.erased.shown

theorem listShown_erased_cons (token : Token) (tokens : List Token) :
    listShown (listErased (token :: tokens)) = token.erasedShown ++ listShown (listErased tokens) := by
  rw [listErased_cons, erasedShown]
  split
  case isTrue => rfl
  case isFalse => rw [List.singleton_append, listShown_cons]

theorem partOf_list {items : List Token}
    (h : ∀ token ∈ items, PartOf token.erasedShown token.shown token.repeatsLeftOut) :
    PartOf (listShown (listErased items)) (listShown items) (listRepeatsLeftOut items) := by
  induction items with
  | nil => exact PartOf.whole []
  | cons token tokens ih =>
    obtain ⟨ht, hs⟩ := List.forall_mem_cons.mp h
    rw [listShown_erased_cons, listShown_cons, listRepeatsLeftOut]
    exact ht.append (ih hs)

theorem partOf_branches {branches : List (List Token)}
    (h : ∀ branch ∈ branches, PartOf (listShown (listErased branch)) (listShown branch)
      (listRepeatsLeftOut branch)) :
    PartOf (branchShown (branchErased branches)) (branchShown branches)
      (branchRepeatsLeftOut branches) := by
  induction branches with
  | nil => exact PartOf.whole []
  | cons branch branches ih =>
    obtain ⟨hb, hs⟩ := List.forall_mem_cons.mp h
    cases branches with
    | nil => simpa [branchErased, branchRepeatsLeftOut, branchShown, branchPieces, listShown] using hb
    | cons next branches =>
      have hi := ih hs
      rw [branchErased] at hi ⊢
      rw [branchErased, branchShown_cons, branchShown_cons, branchRepeatsLeftOut]
      exact hb.append ((PartOf.whole ['|']).append hi)

mutual

theorem partOf_item {token : Token} : Item ReadLeaf token →
    PartOf token.erasedShown token.shown token.repeatsLeftOut
  | .leaf h => by
    obtain ⟨he, hr, hs⟩ := erased_leaf h
    have ht : token.erasedShown = token.shown := by
      rw [erasedShown, he]
      split
      case isTrue hl => exact (hs hl).symm
      case isFalse => rfl
    rw [ht, hr]
    exact PartOf.whole _
  | @Item.group _ items h => by
    have hc := (PartOf.whole ['(']).append ((partOf_content h).append (PartOf.whole [')']))
    simpa [erasedShown, isLeftOut, erased, shown_group, repeatsLeftOut] using hc
  | @Item.repeated _ q body hq hr h => by
    have hi := partOf_item h
    rw [shown_repeated, repeatsLeftOut, erasedShown, isLeftOut]
    by_cases hl : body.isLeftOut = true
    · rw [if_pos hl, hl, Bool.true_or]
      refine PartOf.nothing fun he => ?_
      exact quantifier_ne_nil hq (List.append_eq_nil_iff.mp he).2
    · rw [Bool.not_eq_true] at hl
      rw [erasedShown, hl] at hi
      rw [hl, Bool.false_or, erased, shown_repeated]
      simpa using hi.append (PartOf.whole _)

theorem partOf_content {items : List Token} : Content ReadLeaf items →
    PartOf (listShown (listErased items)) (listShown items) (listRepeatsLeftOut items)
  | .sequence h => partOf_list fun token ht => partOf_item (h token ht)
  | @Content.alternation _ branches _ h => by
    have hb := partOf_branches fun branch hb =>
      partOf_list fun token ht => partOf_item (h branch hb token ht)
    have he : listErased [alternation branches] = [alternation (branchErased branches)] := rfl
    have hr : listRepeatsLeftOut [alternation branches] = branchRepeatsLeftOut branches := by
      simp [listRepeatsLeftOut, repeatsLeftOut]
    rw [he, hr, listShown_alternation, listShown_alternation]
    exact hb

end

/-- A pattern that was read is rendered as its erased tree is, with nothing but quantifiers more,
and exactly so if none of them stands behind a construct that is left out. -/
theorem renderTokens_erased (text : List Char) (flags found : Flags) (tokens : List Token)
    (h : Pattern.read text flags = .ok (tokens, found)) :
    ∃ out erased, (Renderer.ofTarget .plain false).renderTokens tokens = .ok out ∧
      (Renderer.ofTarget .plain false).renderTokens (listErased tokens) = .ok erased ∧
      erased.toList.Sublist out.toList ∧ (out = erased ↔ listRepeatsLeftOut tokens = false) := by
  have hc := (Pattern.content_of_read h).1
  obtain ⟨hs, he⟩ := partOf_content hc
  refine ⟨_, _, renderTokens_lenient hc, renderTokens_lenient (content_erased hc), ?_, ?_⟩
  · simpa using hs
  · rw [← he, String.ofList_inj]
    exact eq_comm

section

open scoped TreeEquality

/-- The star behind the assertion is shown behind the letter. -/
theorem renderTokens_erased_lookahead :
    Pattern.read "(b(?=a)*|[^c]?)".toList ∅ = .ok ([.group [.alternation [[.literal 'b',
        .repeated ⟨0, none, false⟩ (.unrendered (.lookaround true false))],
      [.repeated ⟨0, some 1, false⟩ (.unrendered .negatedClass)]]]], ∅) ∧
    ∃ out erased,
      (Renderer.ofTarget .plain false).renderTokens [.group [.alternation [[.literal 'b',
          .repeated ⟨0, none, false⟩ (.unrendered (.lookaround true false))],
        [.repeated ⟨0, some 1, false⟩ (.unrendered .negatedClass)]]]] = .ok out ∧
      (Renderer.ofTarget .plain false).renderTokens [.group [.alternation [[.literal 'b'], []]]] =
        .ok erased ∧
      erased.toList.Sublist out.toList ∧ out ≠ erased := by
  have hr : Pattern.read "(b(?=a)*|[^c]?)".toList ∅ = .ok ([.group [.alternation [[.literal 'b',
        .repeated ⟨0, none, false⟩ (.unrendered (.lookaround true false))],
      [.repeated ⟨0, some 1, false⟩ (.unrendered .negatedClass)]]]], ∅) := by decide +kernel
  obtain ⟨out, erased, ho, he, hs, hiff⟩ := renderTokens_erased _ ∅ ∅ _ hr
  exact ⟨hr, out, erased, ho, he, hs, fun heq => absurd (hiff.mp heq) (by decide)⟩

end

end RegexTypeset
