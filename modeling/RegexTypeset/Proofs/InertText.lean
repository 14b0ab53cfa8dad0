import Mathlib.Data.List.Infix
import RegexTypeset.Proofs.TargetTexts

/-! # Escaped text is inert

An escaped text is decoded to the text, and it says nothing of its own in the markup around
it. In HTML it starts no tag, ends no attribute, and each ampersand is that of an entity. In
TeX its braces match, those behind a backslash apart, and so do the braces of a rendering.
-/
namespace RegexTypeset

structure IsMatched (text : List Char) : Prop where
  total : text.count '}' = text.count '{'
  upTo : ∀ front, front <+: text → front.count '}' ≤ front.count '{'

theorem prefix_append_cases {front s t : List Char} (h : front <+: s ++ t) :
    front <+: s ∨ ∃ more, more <+: t ∧ front = s ++ more := by
  rcases List.prefix_or_prefix_of_prefix h (List.prefix_append s t) with hp | ⟨more, rfl⟩
  · exact Or.inl hp
  · exact Or.inr ⟨more, (List.prefix_append_right_inj s).mp h, rfl⟩

instance (text : List Char) : Decidable (IsMatched text) :=
  decidable_of_iff
    (text.count '}' = text.count '{' ∧ ∀ front ∈ text.inits, front.count '}' ≤ front.count '{')
    ⟨fun h => ⟨h.1, fun front hf => h.2 front ((List.mem_inits _ _).mpr hf)⟩,
      fun h => ⟨h.total, fun front hf => h.upTo front ((List.mem_inits _ _).mp hf)⟩⟩

namespace IsMatched

variable {s t text : List Char}

theorem of_not_mem (ho : '{' ∉ text) (hc : '}' ∉ text) : IsMatched text := by
  constructor
  · rw [List.count_eq_zero_of_not_mem ho, List.count_eq_zero_of_not_mem hc]
  · intro front hf
    rw [List.count_eq_zero_of_not_mem fun hm => hc (hf.subset hm)]
    exact Nat.zero_le _

theorem append (hs : IsMatched s) (ht : IsMatched t) : IsMatched (s ++ t) := by
  constructor
  · rw [List.count_append, List.count_append, hs.total, ht.total]
  · intro front hf
    rcases prefix_append_cases hf with hp | ⟨more, hm, rfl⟩
    · exact hs.upTo front hp
    · have hn := ht.upTo more hm
      rw [List.count_append, List.count_append, hs.total]
      omega

/-- A brace in front and one behind match each other. -/
theorem enclosed (h : IsMatched text) : IsMatched ('{' :: (text ++ ['}'])) := by
  constructor
  · simp [h.total]
  · intro front hf
    rcases List.prefix_cons_iff.mp hf with rfl | ⟨inner, rfl, hi⟩
    · exact Nat.le_refl _
    · have hn : inner.count '}' ≤ inner.count '{' + 1 := by
        rcases prefix_append_cases hi with hp | ⟨last, hl, rfl⟩
        · exact Nat.le_succ_of_le (h.upTo inner hp)
        · have hone : last.count '}' ≤ 1 := List.count_le_length.trans hl.length_le
          rw [List.count_append, List.count_append, h.total]
          omega
      simpa using hn

end IsMatched

namespace Html

/-- An ampersand among escaped characters is the start of an entity. -/
theorem entity_of_ampersand {text before rest : List Char}
    (h : text.flatMap escapeChar = before ++ '&' :: rest) :
    ∃ code ∈ entities, code.sign <+: '&' :: rest := by
  induction text generalizing before with
  | nil => simp at h
  | cons c text ih =>
    rw [List.flatMap_cons] at h
    rcases List.append_eq_append_iff.mp h with ⟨front, -, hf⟩ | ⟨front, hc, hf⟩
    · exact ih hf
    · cases front with
      | nil => exact @ih [] hf.symm
      | cons d front =>
        obtain ⟨rfl, rfl⟩ := List.cons.inj hf
        rcases cases_of_escapeChar c with ⟨code, hm, hs, -⟩ | ⟨he, hn⟩
        · have hall : ∀ code ∈ entities, '&' ∉ code.more := by decide
          -- only the first character of an entity is an ampersand
          rw [← hs] at hc
          cases before with
          | nil => exact ⟨code, hm, hc ▸ List.prefix_append _ _⟩
          | cons e before =>
            refine absurd ?_ (hall code hm)
            rw [(List.cons.inj hc).2]
            simp
        · have hmem : '&' ∈ [c] := by
            rw [← he, hc]
            simp
          exact absurd (List.mem_singleton.mp hmem ▸ by decide) hn

end Html

namespace Tex

variable {c : Char} {front s t text tail : List Char}

def escaped? : SignReader
  | '\\' :: _ => some (1, [])
  | _ => none

def exposed (text : List Char) : List Char := decode escaped? text

/-- Braces that are not escaped match: as many are closed as are opened, and never more of them
up to any place. -/
structure IsBalanced (text : List Char) : Prop where
  total : (exposed text).count '}' = (exposed text).count '{'
  upTo : ∀ front, front <+: text → (exposed front).count '}' ≤ (exposed front).count '{'

@[simp] theorem exposed_nil : exposed [] = [] := decode_nil

theorem exposed_escaped (c : Char) (rest : List Char) :
    exposed ('\\' :: c :: rest) = exposed rest := by
  have hs : escaped? ('\\' :: ([c] ++ rest)) = some ([c].length, []) := rfl
  exact decode_cons_of_some hs

theorem exposed_lone : exposed ['\\'] = [] := by
  have hs : escaped? ['\\'] = some (1, []) := rfl
  rw [exposed, decode, hs]
  exact decode_nil

theorem exposed_cons (h : c ≠ '\\') (rest : List Char) :
    exposed (c :: rest) = c :: exposed rest := by
  refine decode_cons_of_none ?_
  unfold escaped?
  split
  case h_1 he => exact absurd (List.cons.inj he).1 h
  case h_2 => rfl

theorem exposed_append (h : '\\' ∉ text) (rest : List Char) :
    exposed (text ++ rest) = text ++ exposed rest := by
  induction text with
  | nil => rfl
  | cons c text ih =>
    rw [List.mem_cons, not_or] at h
    rw [List.cons_append, exposed_cons (Ne.symm h.1), ih h.2, List.cons_append]

theorem exposed_prefix (h : front <+: text) : exposed front <+: exposed text := by
  -- a backslash takes two characters, so the induction is on the length
  induction hl : front.length using Nat.strongRecOn generalizing front text with
  | ind l ih =>
    obtain ⟨rest, rfl⟩ := h
    cases front with
    | nil =>
      rw [exposed_nil]
      exact List.nil_prefix
    | cons c front =>
      by_cases hc : c = '\\'
      · subst hc
        cases front with
        | nil =>
          rw [exposed_lone]
          exact List.nil_prefix
        | cons d front =>
          have hlt : front.length < l := by
            simp only [List.length_cons] at hl
            omega
          rw [List.cons_append, List.cons_append, exposed_escaped, exposed_escaped]
          exact ih front.length hlt (List.prefix_append front rest) rfl
      · have hlt : front.length < l := by
          simp only [List.length_cons] at hl
          omega
        rw [List.cons_append, exposed_cons hc, exposed_cons hc, List.prefix_cons_inj]
        exact ih front.length hlt (List.prefix_append front rest) rfl

/-- The braces of a text match, and its last character escapes nothing behind it. -/
def IsClosed (text : List Char) : Prop :=
  ∃ shown, IsMatched shown ∧ ∀ rest, exposed (text ++ rest) = shown ++ exposed rest

namespace IsClosed

theorem isBalanced (h : IsClosed text) : IsBalanced text := by
  obtain ⟨shown, hm, he⟩ := h
  have hs : exposed text = shown := by
    have hn := he []
    rwa [exposed_nil, List.append_nil, List.append_nil] at hn
  exact ⟨hs ▸ hm.total, fun front hf => hm.upTo _ (hs ▸ exposed_prefix hf)⟩

theorem of_not_mem (h : '\\' ∉ text) (hm : IsMatched text) : IsClosed text :=
  ⟨text, hm, exposed_append h⟩

theorem nil : IsClosed [] := of_not_mem List.not_mem_nil (by decide)

/-- A control symbol or a control word, and what belongs to it. -/
theorem command (h : '\\' ∉ tail) (hm : IsMatched tail) : IsClosed ('\\' :: c :: tail) :=
  ⟨tail, hm, fun rest => (exposed_escaped c (tail ++ rest)).trans (exposed_append h rest)⟩

theorem append (hs : IsClosed s) (ht : IsClosed t) : IsClosed (s ++ t) := by
  obtain ⟨a, ha, hea⟩ := hs
  obtain ⟨b, hb, heb⟩ := ht
  refine ⟨a ++ b, ha.append hb, fun rest => ?_⟩
  rw [List.append_assoc, hea, heb, List.append_assoc]

theorem flatMap {α : Type} {f : α → List Char} {items : List α}
    (h : ∀ a ∈ items, IsClosed (f a)) : IsClosed (items.flatMap f) := by
  induction items with
  | nil =>
    rw [List.flatMap_nil]
    exact nil
  | cons a items ih =>
    rw [List.flatMap_cons]
    exact (h a List.mem_cons_self).append (ih fun b hb => h b (List.mem_cons_of_mem _ hb))

theorem group (h : IsClosed text) : IsClosed ('{' :: (text ++ ['}'])) := by
  obtain ⟨shown, hm, he⟩ := h
  refine ⟨'{' :: (shown ++ ['}']), hm.enclosed, fun rest => ?_⟩
  simp [exposed_cons, he]

end IsClosed

theorem isClosed_escapeChar (c : Char) : IsClosed (escapeChar c) := by
  rcases cases_of_escapeChar c with ⟨code, hm, hs, -⟩ | ⟨he, hc⟩
  · have hall : ∀ code ∈ replacements, ('\\' ∉ code.sign ∧ IsMatched code.sign) ∨
        code.first = '\\' ∧ code.more ≠ [] ∧ '\\' ∉ code.more.tail ∧ IsMatched code.more.tail := by
      decide
    rw [← hs]
    rcases hall code hm with ⟨hn, hb⟩ | ⟨hf, hne, hn, hb⟩
    · exact .of_not_mem hn hb
    · obtain ⟨d, tail, hd⟩ := List.exists_cons_of_ne_nil hne
      rw [hd] at hn hb
      rw [Code.sign, hf, hd]
      exact .command hn hb
  · simp only [List.mem_cons, List.not_mem_nil, or_false, not_or] at hc
    obtain ⟨hb, ho, hcl⟩ := hc
    rw [he]
    refine .of_not_mem ?_ (.of_not_mem ?_ ?_)
    · exact fun hm => hb (List.mem_singleton.mp hm).symm
    · exact fun hm => ho (List.mem_singleton.mp hm).symm
    · exact fun hm => hcl (List.mem_singleton.mp hm).symm

theorem isClosed_escape (s : String) : IsClosed (escape s).toList := by
  rw [escape, String.toList_ofList]
  exact IsClosed.flatMap fun c _ => isClosed_escapeChar c

theorem isClosed_textColor (slot : Slot) (raw : String) :
    IsClosed (Palette.textColor slot raw).toList := by
  unfold Palette.textColor
  split
  case isTrue =>
    have hc : IsClosed ('\\' :: 'e' :: "nspace".toList) := .command (by decide) (by decide)
    exact hc
  case isFalse =>
    have hc : IsClosed ('\\' :: 't' :: "extcolor".toList) := .command (by decide) (by decide)
    have hn : IsClosed slot.name.toList := by
      cases slot <;> exact .of_not_mem (by decide) (by decide)
    have ht : ("\\textcolor\x7b" ++ slot.name ++ "\x7d\x7b" ++ escape raw ++ "\x7d").toList =
        '\\' :: 't' :: "extcolor".toList ++ '{' :: (slot.name.toList ++ ['}']) ++
          '{' :: ((escape raw).toList ++ ['}']) := by
      simp
    rw [ht]
    exact (hc.append hn.group).append (isClosed_escape raw).group

/-- Pieces in colour stand side by side. -/
theorem isClosed_shownIn (pieces : List Piece) : IsClosed (shownIn .latex pieces) := by
  refine IsClosed.flatMap fun piece _ => ?_
  cases piece with
  | text slot raw =>
    show IsClosed (Palette.latex.style slot raw).toList
    rw [style_latex]
    exact isClosed_textColor slot raw
  | leftOut => exact .nil
  | malformed => exact .nil

theorem isClosed_wrap {body : String} (h : IsClosed body.toList) :
    IsClosed (Palette.latex.wrap body).toList := by
  have hcode : IsClosed ('\\' :: 's' :: "phinxcode".toList) := .command (by decide) (by decide)
  have hquote : IsClosed ('\\' :: 's' :: "phinxupquote".toList) := .command (by decide) (by decide)
  have ht : (Palette.latex.wrap body).toList =
      '\\' :: 's' :: "phinxcode".toList ++ '{' :: ('\\' :: 's' :: "phinxupquote".toList ++
        '{' :: (body.toList ++ ['}']) ++ ['}']) := by
    rw [wrap_latex]
    simp
  rw [ht]
  exact hcode.append (hquote.append h.group).group

theorem isBalanced_of_renderPieces {strict : Bool} {pieces : List Piece} {out : String}
    (h : (Renderer.ofTarget .latex strict).renderPieces pieces = .ok out) :
    IsBalanced out.toList := by
  rcases renderPieces_cases strict pieces with ⟨e, he⟩ | hr
  · cases (he .latex).symm.trans h
  · obtain rfl := Except.ok.inj ((hr .latex).symm.trans h)
    refine (isClosed_wrap ?_).isBalanced
    rw [String.toList_ofList]
    exact isClosed_shownIn pieces

def unescape (text : List Char) : List Char := decode (Code.reader replacements) text

theorem unescape_escape (s : String) : unescape (escape s).toList = s.toList := by
  have hp : Code.PrefixFree replacements := by decide
  have hf : ∀ code ∈ replacements, code.first ∈ ['\\', '{', '}'] := by decide
  have hd := decode_append_escape hp (List.Subset.refl _) hf s.toList []
  rw [decode_nil, List.append_nil, List.append_nil] at hd
  rw [escape, String.toList_ofList]
  exact hd

end Tex

/-- Both ways of escaping can be undone, and an escaped text does nothing to the markup around it:
in HTML there are no tags and quotes and only ampersands of entities, in TeX braces match. So the
braces of a rendering in LaTeX match as a whole, be it of tokens or of a sample. -/
theorem escape_lossless :
    (∀ s : String, Html.unescape (Html.escape s).toList = s.toList ∧
      (∀ c ∈ ['<', '>', '"'], c ∉ (Html.escape s).toList) ∧
      ∀ before rest, (Html.escape s).toList = before ++ '&' :: rest →
        ∃ code ∈ Html.entities, code.sign <+: '&' :: rest) ∧
    (∀ s : String, Tex.unescape (Tex.escape s).toList = s.toList ∧
      Tex.IsBalanced (Tex.escape s).toList) ∧
    Function.Injective Tex.escape ∧
    (∀ strict tokens out, (Renderer.ofTarget .latex strict).renderTokens tokens = .ok out →
      Tex.IsBalanced out.toList) ∧
    ∀ strict sample out, (Renderer.ofTarget .latex strict).renderSample sample = .ok out →
      Tex.IsBalanced out.toList := by
  refine ⟨fun s => ⟨?_, fun c hc hm => ?_, fun before rest h => ?_⟩,
    fun s => ⟨Tex.unescape_escape s, (Tex.isClosed_escape s).isBalanced⟩, fun s t h => ?_,
    fun strict tokens out h => Tex.isBalanced_of_renderPieces h,
    fun strict sample out h => Tex.isBalanced_of_renderPieces h⟩
  · have hu := Html.unescape_append_escape s.toList []
    rw [Html.escape, String.toList_ofList]
    simpa [Html.unescape] using hu
  · rw [Html.escape, String.toList_ofList, List.mem_flatMap] at hm
    obtain ⟨d, -, hd⟩ := hm
    exact Html.not_mem_escapeChar hc d hd
  · rw [Html.escape, String.toList_ofList] at h
    exact Html.entity_of_ampersand h
  · have he : s.toList = t.toList := by
      rw [← Tex.unescape_escape s, ← Tex.unescape_escape t, h]
    exact String.toList_inj.mp he

/-- A text with all that is special in HTML, and a class with braces in it: those of the text are
behind backslashes, those of the brackets match. -/
theorem escape_lossless_braces :
    Html.unescape (Html.escape "<&quot;\">").toList = "<&quot;\">".toList ∧
    Tex.unescape (Tex.escape "\\\x7d[-\x7b^~").toList = "\\\x7d[-\x7b^~".toList ∧
    Tex.IsBalanced (Tex.escape "\\\x7d[-\x7b^~").toList ∧
    ∃ out, (Renderer.ofTarget .latex true).renderTokens
        [.charClass [.literal '\x7d', .charRange '[' ']']] = .ok out ∧
      Tex.IsBalanced out.toList := by
  obtain ⟨hhtml, htex, -, htokens, -⟩ := escape_lossless
  have hr : ∃ out, (Renderer.ofTarget .latex true).renderTokens
      [.charClass [.literal '\x7d', .charRange '[' ']']] = .ok out := ⟨_, rfl⟩
  obtain ⟨out, ho⟩ := hr
  exact ⟨(hhtml _).1, (htex _).1, (htex _).2, out, ho, htokens true _ out ho⟩

end RegexTypeset
