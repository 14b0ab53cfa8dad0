import RegexTypeset.Proofs.BlockedReading
import RegexTypeset.Proofs.RoundTrip

/-! # Layout of verbose patterns

In verbose reading blanks and comments may stand before every item, before a bar or a
closing parenthesis, between an item and its quantifier, and at the end. A text that is laid
out in this way is read as the tree that it shows. Inside a class nothing is layout.
-/
namespace RegexTypeset

/-- Blanks and comments. A comment ends with its line, whatever it holds. -/
inductive Filler : List Char → Prop
  | nil : Filler []
  | blank {c : Char} {rest : List Char} : isBlank c = true → Filler rest → Filler (c :: rest)
  | comment {text rest : List Char} : '\n' ∉ text → Filler rest →
      Filler ('#' :: (text ++ '\n' :: rest))

namespace Filler

variable {gap rest : List Char}

theorem quiet (h : Filler gap) (hr : Quiet rest) : Quiet (gap ++ rest) := by
  cases h with
  | nil => exact hr
  | @blank c _ hc _ =>
    have hne : c ≠ '?' := by
      rintro rfl
      exact absurd hc (by decide)
    simpa [Quiet] using hne
  | comment => simp [Quiet]

/-- Filler has no effect in verbose reading. -/
theorem read_eq (h : Filler gap) {n : Nesting} (hv : n.isVerbose = true) :
    n.read (gap ++ rest) = n.read rest := by
  induction h with
  | nil => rfl
  | @blank c gap hc _ ih =>
    have hne : c ≠ '(' := by
      rintro rfl
      exact absurd hc (by decide)
    rw [← ih]
    exact Nesting.read_lexeme .filler (fun he => absurd he hne) (by simp [Lexeme.read, hv, hc]) rfl
  | @comment text gap ht _ ih =>
    have hline : Lexeme.nextLine (text ++ '\n' :: (gap ++ rest)) = gap ++ rest := by
      rw [Lexeme.nextLine_of_not_mem ht]
      rfl
    have hb : isBlank '#' = false := by decide
    rw [← ih, List.cons_append, List.append_assoc, List.cons_append]
    exact Nesting.read_lexeme .filler (fun he => absurd he (by decide))
      (by simp [Lexeme.read, hv, hb, hline]) rfl

end Filler

section
variable (leaf : Token → Prop) (gap : List Char → Prop)

mutual

/-- A text of an item: what is shown of it, with gaps inside groups and before quantifiers. -/
inductive ItemText : Token → List Char → Prop
  | leaf {token : Token} : leaf token → ItemText token token.shown
  | group {items : List Token} {text : List Char} : ContentText items text →
      ItemText (.group items) ('(' :: (text ++ [')']))
  | repeated {q : Quantifier} {body : Token} {text between : List Char} : ItemText body text →
      gap between →
      ItemText (.repeated q body) (text ++ (between ++ (Piece.quantifier q).flatMap Piece.raw))

inductive ListText : List Token → List Char → Prop
  | nil {behind : List Char} : gap behind → ListText [] behind
  | cons {token : Token} {tokens : List Token} {before text more : List Char} : gap before →
      ItemText token text → ListText tokens more →
      ListText (token :: tokens) (before ++ (text ++ more))

inductive BranchText : List (List Token) → List Char → Prop
  | last {branch : List Token} {text : List Char} : ListText branch text →
      BranchText [branch] text
  | cons {branch : List Token} {branches : List (List Token)} {text more : List Char} :
      ListText branch text → BranchText branches more →
      BranchText (branch :: branches) (text ++ '|' :: more)

inductive ContentText : List Token → List Char → Prop
  | sequence {items : List Token} {text : List Char} : ListText items text →
      ContentText items text
  | alternation {branches : List (List Token)} {text : List Char} : BranchText branches text →
      ContentText [.alternation branches] text

end

end

variable {leaf : Token → Prop} {gap : List Char → Prop}

mutual

/-- Without gaps the text of an item is what is shown of it. -/
theorem ItemText.eq_shown {token : Token} {text : List Char} :
    ItemText leaf (· = []) token text → text = token.shown
  | .leaf _ => rfl
  | .group h => by rw [h.eq_listShown, Token.shown_group]
  | .repeated h hb => by
    subst hb
    rw [h.eq_shown, Token.shown_repeated, List.nil_append]

theorem ListText.eq_listShown {items : List Token} {text : List Char} :
    ListText leaf (· = []) items text → text = Token.listShown items
  | .nil hb => hb
  | .cons hb h hm => by
    subst hb
    rw [h.eq_shown, hm.eq_listShown, Token.listShown_cons, List.nil_append]

theorem BranchText.eq_branchShown {branches : List (List Token)} {text : List Char} :
    BranchText leaf (· = []) branches text → text = Token.branchShown branches
  | .last h => h.eq_listShown
  | .cons h hm => by
    cases hm with
    | last hm => rw [h.eq_listShown, hm.eq_listShown, Token.branchShown_cons]; rfl
    | cons h' hm' =>
      rw [h.eq_listShown, (BranchText.cons h' hm').eq_branchShown, Token.branchShown_cons]

theorem ContentText.eq_listShown {items : List Token} {text : List Char} :
    ContentText leaf (· = []) items text → text = Token.listShown items
  | .sequence h => h.eq_listShown
  | .alternation h => by rw [h.eq_branchShown, Token.listShown_alternation]

end

theorem listText_shown {items : List Token} (hg : gap [])
    (h : ∀ token ∈ items, ItemText leaf gap token token.shown) :
    ListText leaf gap items (Token.listShown items) := by
  induction items with
  | nil => exact .nil hg
  | cons token items ih =>
    rw [Token.listShown_cons]
    exact .cons hg (h token List.mem_cons_self) (ih fun t ht => h t (List.mem_cons_of_mem _ ht))

theorem branchText_shown {branches : List (List Token)} (hne : branches ≠ [])
    (h : ∀ branch ∈ branches, ListText leaf gap branch (Token.listShown branch)) :
    BranchText leaf gap branches (Token.branchShown branches) := by
  induction branches with
  | nil => exact absurd rfl hne
  | cons branch branches ih =>
    have hb := h branch List.mem_cons_self
    cases branches with
    | nil => exact .last hb
    | cons next branches =>
      rw [Token.branchShown_cons]
      exact .cons hb (ih (List.cons_ne_nil _ _) fun b hm => h b (List.mem_cons_of_mem _ hm))

mutual

/-- What is shown of an item is one of its texts, if there may be no gap. -/
theorem itemText_shown (hg : gap []) {token : Token} :
    Item leaf token → ItemText leaf gap token token.shown
  | .leaf h => .leaf h
  | .group h => by
    rw [Token.shown_group]
    exact .group (contentText_shown hg h)
  | .repeated _ _ h => by
    rw [Token.shown_repeated]
    exact .repeated (itemText_shown hg h) hg

theorem contentText_shown (hg : gap []) {items : List Token} :
    Content leaf items → ContentText leaf gap items (Token.listShown items)
  | .sequence h => .sequence (listText_shown hg fun token ht => itemText_shown hg (h token ht))
  | .alternation hl h => by
    rw [Token.listShown_alternation]
    refine .alternation (branchText_shown ?_ fun branch hb =>
      listText_shown hg fun token ht => itemText_shown hg (h branch hb token ht))
    rintro rfl
    cases hl

end

def VisibleLeaf (token : Token) : Prop :=
  BareLeaf token ∧ ∀ c, token = .literal c → isBlank c = false ∧ c ≠ '#'

/-- The text of a leaf is one lexeme in verbose reading as well. -/
theorem Lexeme.read_visibleLeaf {token : Token} (h : VisibleLeaf token) (verbose : Bool)
    (rest : List Char) :
    ∃ c text, token.shown = c :: text ∧ c ≠ '?' ∧ c ≠ '(' ∧
      read verbose c (text ++ rest) = .ok (.item token, rest) := by
  obtain ⟨hl, hv⟩ := h
  obtain ⟨c, text, hc, hq, hp, hs⟩ := solid_leaf hl rest
  have hlone (hn : c ∉ metacharacters) : isBlank c = false ∧ c ≠ '#' := by
    have he : (Lexeme.item (.literal c), text ++ rest) = (.item token, rest) :=
      Except.ok.inj ((solid_literal hn (text ++ rest)).symm.trans hs)
    exact hv c (Lexeme.item.inj (Prod.mk.inj he).1).symm
  have hmarks : (metacharacters.all fun d => !isBlank d && d != '#') = true := by decide
  have hf : isBlank c = false ∧ c ≠ '#' := by
    by_cases hn : c ∈ metacharacters
    · simpa using List.all_eq_true.mp hmarks c hn
    · exact hlone hn
  refine ⟨c, text, hc, hq, hp, ?_⟩
  simpa [read, hf.1, hf.2] using hs

variable {rest text : List Char}

theorem ItemText.exists_cons {token : Token} {text : List Char} :
    ItemText VisibleLeaf gap token text → ∃ c more, text = c :: more ∧ c ≠ '?'
  | .leaf h => by
    obtain ⟨c, more, hc, hq, -⟩ := Lexeme.read_visibleLeaf h true []
    exact ⟨c, more, hc, hq⟩
  | .group _ => ⟨'(', _, rfl, by decide⟩
  | .repeated h _ => by
    obtain ⟨c, more, rfl, hq⟩ := h.exists_cons
    exact ⟨c, _, rfl, hq⟩

theorem ListText.quiet {items : List Token} (h : ListText VisibleLeaf Filler items text)
    (hr : Quiet rest) : Quiet (text ++ rest) := by
  cases h with
  | nil hb => exact hb.quiet hr
  | cons hb hi _ =>
    obtain ⟨c, more, rfl, hq⟩ := hi.exists_cons
    rw [List.append_assoc]
    exact hb.quiet (by simpa [Quiet] using hq)

theorem ContentText.quiet {items : List Token} (h : ContentText VisibleLeaf Filler items text)
    (hr : Quiet rest) : Quiet (text ++ rest) := by
  cases h with
  | sequence h => exact h.quiet hr
  | alternation h =>
    cases h with
    | last h => exact h.quiet hr
    | cons h _ =>
      rw [List.append_assoc]
      exact h.quiet (by simp [Quiet])

/-- In verbose reading a text changes what the innermost group holds, if there is room for the
groups of the text. -/
def ReadsVerbose (text : List Char) (depth : Nat) (effect : Alternatives → Alternatives)
    (rest : List Char) : Prop :=
  ∀ n : Nesting, n.isVerbose = true → n.depth + depth ≤ Nesting.maxDepth →
    n.read (text ++ rest) = ({ n with current := effect n.current } : Nesting).read rest

theorem VisibleLeaf.noBranches (branches : List (List Token)) :
    ¬ VisibleLeaf (.alternation branches) :=
  fun h => h.1

mutual

theorem ItemText.reads {token : Token} {text : List Char} :
    ItemText VisibleLeaf Filler token text → Item VisibleLeaf token → ∀ rest,
      token.isRepeatable = true ∨ Quiet rest →
      ReadsVerbose text token.groupDepth (·.addAll [token]) rest
  | .leaf h, _, rest, _ => by
    intro n hv hd
    obtain ⟨c, more, hc, -, hp, hl⟩ := Lexeme.read_visibleLeaf h n.isVerbose rest
    rw [hc]
    exact Nesting.read_lexeme (.item _) (fun he => absurd he hp) hl rfl
  | @ItemText.group _ _ items text ht, hi, rest, _ => by
    have hc : Content VisibleLeaf items := by
      cases hi with
      | leaf h => exact absurd h.1 id
      | group h => exact h
    have hq : Quiet (text ++ ')' :: rest) := ht.quiet (by simp [Quiet])
    intro n hv hd
    rw [Token.groupDepth] at hd
    refine Nesting.read_enclosed .plain [] (by omega) (GroupHeader.read_plain hq)
      (Alternatives.addContent_empty VisibleLeaf.noBranches hc).2 fun place => ?_
    refine ht.reads hc _ (by simp [Quiet]) _ ?_ ?_
    · rw [Nesting.isVerbose_openGroup fun _ => rfl, hv]
    · rw [Nesting.depth_openGroup]
      omega
  | @ItemText.repeated _ _ q body text between ht hb, hi, rest, hr => by
    obtain ⟨hq, hbody, hi⟩ :
        q.isReversed = false ∧ body.isRepeatable = true ∧ Item VisibleLeaf body := by
      cases hi with
      | leaf h => exact absurd h.1 id
      | repeated hq hbody hi => exact ⟨hq, hbody, hi⟩
    -- nothing is repeated twice, so what follows the quantifier is quiet
    have hr : q.isLazy = true ∨ Quiet rest := Or.inr (hr.resolve_left (by simp [Token.isRepeatable]))
    obtain ⟨c, more, hc, hp, hs⟩ := Lexeme.solid_quantifier hq hr
    have hl := Lexeme.read_verbose hs (.inr (.inr ⟨q, rfl⟩))
    intro n hv hd
    rw [Token.groupDepth] at hd
    rw [hc, List.append_assoc, List.append_assoc]
    calc n.read (text ++ (between ++ (c :: more ++ rest)))
      _ = (n.addAll [body]).read (between ++ (c :: more ++ rest)) :=
        ht.reads hi _ (.inl hbody) n hv hd
      _ = (n.addAll [body]).read (c :: more ++ rest) := hb.read_eq hv
      _ = (n.addAll [.repeated q body]).read rest :=
        Nesting.read_quantifier hbody hp (hv ▸ hl)

theorem ListText.reads {items : List Token} {text : List Char} :
    ListText VisibleLeaf Filler items text → (∀ token ∈ items, Item VisibleLeaf token) → ∀ rest,
      Quiet rest → ReadsVerbose text (listGroupDepth items) (·.addAll items) rest
  | .nil hb, _, rest, _ => fun _ hv _ => hb.read_eq hv
  | @ListText.cons _ _ token tokens before text more hb ht hm, hi, rest, hr => by
    obtain ⟨hi, his⟩ := List.forall_mem_cons.mp hi
    intro n hv hd
    rw [listGroupDepth] at hd
    rw [List.append_assoc, List.append_assoc]
    calc n.read (before ++ (text ++ (more ++ rest)))
      _ = n.read (text ++ (more ++ rest)) := hb.read_eq hv
      _ = (n.addAll [token]).read (more ++ rest) :=
        ht.reads hi _ (.inr (hm.quiet hr)) n hv (by omega)
      _ = ((n.addAll [token]).addAll tokens).read rest :=
        hm.reads his rest hr (n.addAll [token]) hv (by omega : n.depth + _ ≤ _)
      _ = (n.addAll (token :: tokens)).read rest := by
        rw [Nesting.addAll_addAll, List.singleton_append]

theorem BranchText.reads {branches : List (List Token)} {text : List Char} :
    BranchText VisibleLeaf Filler branches text →
      (∀ branch ∈ branches, ∀ token ∈ branch, Item VisibleLeaf token) → ∀ rest, Quiet rest →
      ReadsVerbose text (branchGroupDepth branches) (·.addBranches branches) rest
  | .last h, hi, rest, hr => by
    intro n hv hd
    simp only [branchGroupDepth] at hd
    exact h.reads (hi _ List.mem_cons_self) rest hr n hv (by omega)
  | @BranchText.cons _ _ branch branches text more h hm, hi, rest, hr => by
    obtain ⟨hi, his⟩ := List.forall_mem_cons.mp hi
    have hne : branches ≠ [] := by
      rintro rfl
      cases hm
    intro n hv hd
    rw [branchGroupDepth] at hd
    rw [List.append_assoc, List.cons_append]
    let n' : Nesting := { n.addAll branch with current := (n.current.addAll branch).split }
    calc n.read (text ++ '|' :: (more ++ rest))
      _ = (n.addAll branch).read ('|' :: (more ++ rest)) :=
        h.reads hi _ (by simp [Quiet]) n hv (by omega)
      _ = n'.read (more ++ rest) := Nesting.read_bar _ _
      _ = ({ n' with current := n'.current.addBranches branches } : Nesting).read rest :=
        hm.reads his rest hr n' hv (by omega : n.depth + _ ≤ _)
      _ = ({ n with current := n.current.addBranches (branch :: branches) } : Nesting).read rest := by
        rw [Alternatives.addBranches_cons _ _ hne]
        rfl

theorem ContentText.reads {items : List Token} {text : List Char} :
    ContentText VisibleLeaf Filler items text → Content VisibleLeaf items → ∀ rest, Quiet rest →
      ReadsVerbose text (listGroupDepth items) (·.addContent items) rest
  | .sequence h, hc, rest, hr => by
    have hi : ∀ token ∈ items, Item VisibleLeaf token := by
      cases hc with
      | sequence hi => exact hi
      | alternation => cases h with
        | cons _ ht _ => cases ht with
          | leaf hl => exact absurd hl (VisibleLeaf.noBranches _)
    intro n hv hd
    simp only [Alternatives.addContent_sequence (isSequence_of_items VisibleLeaf.noBranches hi)]
    exact h.reads hi rest hr n hv hd
  | @ContentText.alternation _ _ branches text h, hc, rest, hr => by
    have hi : ∀ branch ∈ branches, ∀ token ∈ branch, Item VisibleLeaf token := by
      cases hc with
      | alternation _ hi => exact hi
      | sequence hi => exact absurd rfl (isSequence_of_items VisibleLeaf.noBranches hi branches)
    intro n hv hd
    simp only [listGroupDepth, Token.groupDepth] at hd
    exact h.reads hi rest hr n hv (by omega)

end

namespace Pattern

/-- A tree is shown as one of its texts, the one without gaps, and with filler in the gaps a
verbose reading gives it back. -/
theorem read_layout {tokens : List Token} (hc : Content VisibleLeaf tokens)
    (hd : listGroupDepth tokens ≤ Nesting.maxDepth) {flags : Flags}
    (hf : flags.has .verbose = true) (strict : Bool) :
    (∃ out, (Renderer.ofTarget .plain strict).renderTokens tokens = .ok out ∧
      ∀ text, ContentText VisibleLeaf (· = []) tokens text ↔ text = out.toList) ∧
    ∀ text, ContentText VisibleLeaf Filler tokens text → read text flags = .ok (tokens, flags) := by
  refine ⟨⟨String.ofList (Token.listShown tokens), ?_, fun text => ⟨fun h => ?_, fun h => ?_⟩⟩,
    fun text h => ?_⟩
  · exact renderPieces_plain strict
      (pieces_of_content (fun _ h => h) (fun _ h => isText_of_bareLeaf h.1) hc)
  · rw [h.eq_listShown, String.toList_ofList]
  · rw [h, String.toList_ofList]
    refine contentText_shown ?_ hc
    rfl
  · let n := (Nesting.start flags).addContent tokens
    have room : (Nesting.start flags).depth + listGroupDepth tokens ≤ Nesting.maxDepth := by
      rw [show (Nesting.start flags).depth = 0 from rfl, Nat.zero_add]
      exact hd
    have hread : (Nesting.start flags).read text = .ok n := calc
      (Nesting.start flags).read text = (Nesting.start flags).read (text ++ []) := by
        rw [List.append_nil]
      _ = n.read [] := h.reads hc [] (by simp [Quiet]) _ hf room
      _ = .ok n := Nesting.read_nil n
    have ht : n.current.tokens = tokens :=
      (Alternatives.addContent_empty VisibleLeaf.noBranches hc).2
    have ho : readOnce text flags = .ok (tokens, flags) :=
      readOnce_eq_ok.mpr ⟨n, hread, rfl, ht, rfl⟩
    have hx : rereads flags flags = false := by simp [rereads, hf]
    simp [read, ho, hx]

/-- A comment that holds signs, a class whose members are no layout, and a lazy quantifier away
from what it applies to. -/
theorem read_layout_comment :
    let members : List Token := [.literal ' ', .literal '#']
    let tokens : List Token :=
      [.alternation [[.repeated ⟨0, none, true⟩ (.charClass members)], [.group [.literal 'b']]]]
    Content VisibleLeaf tokens ∧ listGroupDepth tokens ≤ Nesting.maxDepth ∧
      Flags.verbose.has .verbose = true ∧
      (∃ out, (Renderer.ofTarget .plain true).renderTokens tokens = .ok out ∧
        ∀ text, ContentText VisibleLeaf (· = []) tokens text ↔ text = out.toList) ∧
      read "#(|*?\n[ #] *?|\t(b\n)".toList .verbose = .ok (tokens, .verbose) := by
  intro members tokens
  have hclass : VisibleLeaf (.charClass members) :=
    ⟨⟨by simp [members, Token.IsBareMember, classMarks], .inl (by simp [members])⟩, by simp⟩
  have hb : VisibleLeaf (.literal 'b') :=
    ⟨by simp [BareLeaf, metacharacters], fun c hc => by cases hc; decide⟩
  have hi : Item VisibleLeaf (.repeated ⟨0, none, true⟩ (.charClass members)) :=
    .repeated rfl rfl (.leaf hclass)
  have hg : Item VisibleLeaf (.group [.literal 'b']) := .group (.sequence (by simpa using .leaf hb))
  have hc : Content VisibleLeaf tokens := .alternation (by simp) (by simpa using ⟨hi, hg⟩)
  have blank {c : Char} (h : isBlank c = true) : Filler [c] := .blank h .nil
  have comment : Filler ('#' :: (['(', '|', '*', '?'] ++ ['\n'])) := .comment (by decide) .nil
  have first : ListText VisibleLeaf Filler [.repeated ⟨0, none, true⟩ (.charClass members)] _ :=
    .cons comment (.repeated (.leaf hclass) (blank (by decide : isBlank ' ' = true))) (.nil .nil)
  have inner : ListText VisibleLeaf Filler [.literal 'b'] _ :=
    .cons .nil (.leaf hb) (.nil (blank (by decide : isBlank '\n' = true)))
  have second : ListText VisibleLeaf Filler [.group [.literal 'b']] _ :=
    .cons (blank (by decide : isBlank '\t' = true)) (.group (.sequence inner)) (.nil .nil)
  have room : listGroupDepth tokens ≤ Nesting.maxDepth := by decide
  have hv : Flags.verbose.has .verbose = true := by decide
  obtain ⟨hplain, hread⟩ := read_layout hc room hv true
  have hlaid := hread _ (.alternation (.cons first (.last second)))
  exact ⟨hc, room, hv, hplain, (congrArg (read · .verbose) (by decide +kernel)).trans hlaid⟩

end Pattern

end RegexTypeset
