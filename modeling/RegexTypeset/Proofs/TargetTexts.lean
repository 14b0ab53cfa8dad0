import RegexTypeset.Proofs.Decoding
import RegexTypeset.Proofs.PlainText
import RegexTypeset.Proofs.ReaderExtent

/-! # One text in all targets

A palette decides how fragments are shown, but not which ones there are, nor whether a
rendering fails. Without the marks of its target every rendering is the plain one: tags
and entities in HTML, groups and replacements in LaTeX, control sequences on a terminal.
-/
namespace RegexTypeset

def Html.tag? : SignReader
  | '<' :: text =>
    if '>' ∈ text then some ((text.takeWhile (· ≠ '>')).length + 1, []) else none
  | _ => none

def Html.textOf (page : List Char) : List Char := unescape (decode tag? page)

def Terminal.control? : SignReader
  | '\x1b' :: '[' :: text =>
    let digits := text.takeWhile Char.isDigit
    if digits ≠ [] ∧ (text.drop digits.length).head? = some 'm' then some (digits.length + 2, [])
    else none
  | _ => none

def Terminal.textOf (screen : List Char) : List Char := decode control? screen

/-- The commands around a sample and around a fragment in colour, and the fixed space. A brace
that closes a command stands alone. -/
def Tex.commands : List Code :=
  ⟨'\\', "sphinxcode\x7b\\sphinxupquote\x7b".toList, []⟩ :: ⟨'}', [], []⟩ ::
    ⟨'\\', "enspace".toList, [' ']⟩ ::
    Slot.all.map fun slot => ⟨'\\', "textcolor\x7b".toList ++ slot.name.toList ++ ['}', '{'], []⟩

def Tex.sign? : SignReader := Code.reader (replacements ++ commands)

def Tex.textOf (document : List Char) : List Char := decode sign? document

/-- Pieces are decoded together as each fragment of them is. -/
theorem decode_shownIn {sign? : SignReader} {palette : Palette} {encode : Char → List Char}
    {pieces : List Piece}
    (h : ∀ slot raw, .text slot raw ∈ pieces → ∀ rest,
      decode sign? ((palette.style slot raw).toList ++ rest) =
        raw.toList.flatMap encode ++ decode sign? rest) (rest : List Char) :
    decode sign? (shownIn palette pieces ++ rest) =
      (pieces.flatMap Piece.raw).flatMap encode ++ decode sign? rest := by
  rw [List.flatMap_assoc]
  refine decode_flatMap (fun piece hp rest => ?_) rest
  cases piece with
  | text slot raw => exact h slot raw hp rest
  | leftOut construct => rfl
  | malformed defect => rfl

namespace Html

theorem decode_tag {inner : List Char} (h : '>' ∉ inner) (rest : List Char) :
    decode tag? ('<' :: (inner ++ '>' :: rest)) = decode tag? rest := by
  have ht := (span_append (not_mem_iff_run.mp h) (by simp : decide ('>' ≠ '>') = false) rest).1
  have hs : tag? ('<' :: (inner ++ ['>'] ++ rest)) = some ((inner ++ ['>']).length, []) := by
    simp only [tag?, List.append_assoc, List.singleton_append, ht]
    simp
  simpa using decode_cons_of_some hs

theorem not_mem_escapeChar {d : Char} (hd : d ∈ ['<', '>', '"']) (c : Char) : d ∉ escapeChar c := by
  rcases cases_of_escapeChar c with ⟨code, hc, hs, -⟩ | ⟨he, hc⟩
  · have hall : ∀ code ∈ entities, code.sign.all (fun other => other ∉ ['<', '>', '"']) := by
      decide
    intro hd'
    exact of_decide_eq_true (List.all_eq_true.mp (hall code hc) d (hs ▸ hd')) hd
  · rw [he, List.mem_singleton]
    rintro rfl
    exact hc (List.mem_cons_of_mem _ hd)

theorem decode_escape (text rest : List Char) :
    decode tag? (text.flatMap escapeChar ++ rest) = text.flatMap escapeChar ++ decode tag? rest := by
  apply decode_append_of_none
  intro d hd rest
  obtain ⟨c, -, hc⟩ := List.mem_flatMap.mp hd
  unfold tag?
  split
  case h_1 he =>
    cases he
    exact absurd hc (not_mem_escapeChar (by decide) c)
  case h_2 => rfl

theorem name_noTag (slot : Slot) : '>' ∉ slot.name.toList := by
  cases slot <;> decide

theorem decode_span (slot : Slot) (raw : String) (rest : List Char) :
    decode tag? ((Palette.span slot raw).toList ++ rest) =
      raw.toList.flatMap escapeChar ++ decode tag? rest := by
  have hn : '>' ∉ "span class=\"regex ".toList ++ (slot.name.toList ++ ['"']) := by
    simp only [List.mem_append, not_or]
    exact ⟨by decide, name_noTag slot, by decide⟩
  have he : (Palette.span slot raw).toList ++ rest =
      '<' :: ("span class=\"regex ".toList ++ (slot.name.toList ++ ['"']) ++
        '>' :: (raw.toList.flatMap escapeChar ++ '<' :: ("/span".toList ++ '>' :: rest))) := by
    unfold Palette.span escape
    simp
  rw [he, decode_tag hn, decode_escape, decode_tag (by decide)]

theorem style_html (slot : Slot) (raw : String) :
    Palette.html.style slot raw = Palette.span slot raw := by
  cases slot <;> rfl

theorem wrap_html (body : String) : Palette.html.wrap body =
    "\n<code class=\"docutils literal notranslate regex\">\n" ++ body ++ "\n</code>\n" :=
  rfl

/-- A page shows the text of its pieces between two line ends on either side. -/
theorem textOf_html (pieces : List Piece) :
    textOf (Palette.html.wrap (String.ofList (shownIn .html pieces))).toList =
      "\n\n".toList ++ pieces.flatMap Piece.raw ++ "\n\n".toList := by
  have hp (rest : List Char) : decode tag? (shownIn .html pieces ++ rest) =
      (pieces.flatMap Piece.raw).flatMap escapeChar ++ decode tag? rest := by
    refine decode_shownIn (fun slot raw _ rest => ?_) rest
    rw [style_html]
    exact decode_span slot raw rest
  have hn (rest : List Char) : decode tag? ('\n' :: rest) = '\n' :: decode tag? rest :=
    decode_cons_of_none rfl
  have hw : (Palette.html.wrap (String.ofList (shownIn .html pieces))).toList =
      '\n' :: '<' :: ("code class=\"docutils literal notranslate regex\"".toList ++
        '>' :: '\n' :: (shownIn .html pieces ++
          '\n' :: '<' :: ("/code".toList ++ '>' :: ['\n']))) := by
    rw [wrap_html]
    simp
  have hd : decode tag? (Palette.html.wrap (String.ofList (shownIn .html pieces))).toList =
      ("\n\n".toList ++ pieces.flatMap Piece.raw ++ "\n\n".toList).flatMap escapeChar ++ [] := by
    rw [hw, hn, decode_tag (by decide), hn, hp, hn, decode_tag (by decide), hn, decode_nil,
      List.append_nil, List.flatMap_append, List.flatMap_append]
    rfl
  rw [textOf, hd, unescape_append_escape]
  simp [unescape]

end Html

namespace Tex

theorem prefixFree_all : Code.PrefixFree (replacements ++ commands) := by decide +kernel

theorem decode_escape (text rest : List Char) :
    decode sign? (text.flatMap escapeChar ++ rest) = text ++ decode sign? rest :=
  decode_append_escape prefixFree_all (List.subset_append_left _ _) (by decide +kernel) text rest

theorem decode_command {code : Code} (h : code ∈ commands) (rest : List Char) :
    decode sign? (code.sign ++ rest) = code.meaning ++ decode sign? rest :=
  Code.decode_sign prefixFree_all (List.mem_append_right _ h) rest

theorem decode_brace (rest : List Char) : decode sign? ('}' :: rest) = decode sign? rest :=
  have hm : ⟨'}', [], []⟩ ∈ commands := List.mem_cons_of_mem _ List.mem_cons_self
  decode_command hm rest

/-- A fragment in colour without its commands is its text; a fixed space is a space. -/
theorem decode_textColor (slot : Slot) (raw : String) (rest : List Char) :
    decode sign? ((Palette.textColor slot raw).toList ++ rest) =
      raw.toList ++ decode sign? rest := by
  unfold Palette.textColor
  split
  case isTrue hs =>
    subst hs
    have hm : ⟨'\\', "enspace".toList, [' ']⟩ ∈ commands :=
      List.mem_cons_of_mem _ (List.mem_cons_of_mem _ List.mem_cons_self)
    exact decode_command hm rest
  case isFalse =>
    have hm : ⟨'\\', "textcolor\x7b".toList ++ slot.name.toList ++ ['}', '{'], []⟩ ∈ commands :=
      List.mem_cons_of_mem _ (List.mem_cons_of_mem _ (List.mem_cons_of_mem _
        (List.mem_map_of_mem slot.mem_all)))
    have he : ("\\textcolor\x7b" ++ slot.name ++ "\x7d\x7b" ++ escape raw ++ "\x7d").toList ++ rest =
        '\\' :: ("textcolor\x7b".toList ++ slot.name.toList ++ ['}', '{']) ++
          (raw.toList.flatMap escapeChar ++ '}' :: rest) := by
      unfold escape
      simp
    have hd := decode_command hm (raw.toList.flatMap escapeChar ++ '}' :: rest)
    rw [he]
    refine hd.trans ?_
    rw [decode_escape, decode_brace]
    rfl

theorem style_latex (slot : Slot) (raw : String) :
    Palette.latex.style slot raw = Palette.textColor slot raw := by
  cases slot <;> rfl

theorem wrap_latex (body : String) : Palette.latex.wrap body =
    "\\sphinxcode\x7b\\sphinxupquote\x7b" ++ body ++ "\x7d\x7d" :=
  rfl

theorem textOf_latex (pieces : List Piece) :
    textOf (Palette.latex.wrap (String.ofList (shownIn .latex pieces))).toList =
      pieces.flatMap Piece.raw := by
  have hp (rest : List Char) : decode sign? (shownIn .latex pieces ++ rest) =
      (pieces.flatMap Piece.raw).flatMap (fun c => [c]) ++ decode sign? rest := by
    refine decode_shownIn (fun slot raw _ rest => ?_) rest
    rw [style_latex, List.flatMap_singleton']
    exact decode_textColor slot raw rest
  have hw : (Palette.latex.wrap (String.ofList (shownIn .latex pieces))).toList =
      '\\' :: "sphinxcode\x7b\\sphinxupquote\x7b".toList ++ (shownIn .latex pieces ++ ['}', '}']) := by
    rw [wrap_latex]
    simp
  have hm : ⟨'\\', "sphinxcode\x7b\\sphinxupquote\x7b".toList, []⟩ ∈ commands := List.mem_cons_self
  have hd := decode_command hm (shownIn .latex pieces ++ ['}', '}'])
  rw [textOf, hw]
  refine hd.trans ?_
  rw [hp, decode_brace, decode_brace, decode_nil, List.flatMap_singleton', List.append_nil]
  rfl

end Tex

/-- A text that cannot hold a control sequence: it has one character or no escape sign. -/
def IsUncontrolled (text : List Char) : Prop := '\x1b' ∉ text ∨ text.length = 1

instance (text : List Char) : Decidable (IsUncontrolled text) :=
  inferInstanceAs (Decidable ('\x1b' ∉ text ∨ text.length = 1))

def AreUncontrolled (pieces : List Piece) : Prop := ∀ piece ∈ pieces, IsUncontrolled piece.raw

namespace Terminal

theorem control?_of_ne {c : Char} (h : c ≠ '\x1b') (rest : List Char) : control? (c :: rest) = none := by
  unfold control?
  split
  case h_1 he => exact absurd (List.cons.inj he).1 h
  case h_2 => rfl

theorem decode_control {digits : List Char} (hd : ∀ d ∈ digits, d.isDigit = true) (hn : digits ≠ [])
    (rest : List Char) :
    decode control? ('\x1b' :: '[' :: (digits ++ 'm' :: rest)) = decode control? rest := by
  have ht := (span_append hd (by decide : Char.isDigit 'm' = false) rest).1
  have hs : control? ('\x1b' :: ('[' :: (digits ++ ['m']) ++ rest)) =
      some (('[' :: (digits ++ ['m'])).length, []) := by
    simp only [control?, List.cons_append, List.append_assoc, List.nil_append, ht]
    simp [hn]
  simpa using decode_cons_of_some hs

/-- In front of a control sequence such a text stays. -/
theorem decode_uncontrolled {text : List Char} (h : IsUncontrolled text) (rest : List Char) :
    decode control? (text ++ '\x1b' :: rest) = text ++ decode control? ('\x1b' :: rest) := by
  rcases h with h | h
  · refine decode_append_of_none (fun c hc rest => control?_of_ne ?_ rest) _
    rintro rfl
    exact h hc
  · obtain ⟨c, rfl⟩ := List.length_eq_one_iff.mp h
    apply decode_cons_of_none
    by_cases hc : c = '\x1b'
    · -- a lone escape sign stands before another one and not before a bracket
      subst hc
      rfl
    · exact control?_of_ne hc _

theorem decode_colored {code : String} (hd : ∀ d ∈ code.toList, d.isDigit = true)
    (hn : code.toList ≠ []) {raw : String} (h : IsUncontrolled raw.toList) (rest : List Char) :
    decode control? ((Palette.colored code raw).toList ++ rest) = raw.toList ++ decode control? rest := by
  have he : (Palette.colored code raw).toList ++ rest = '\x1b' :: '[' :: (code.toList ++
      'm' :: (raw.toList ++ '\x1b' :: '[' :: (['3', '9'] ++ 'm' :: rest))) := by
    unfold Palette.colored
    simp
  have hreset : ∀ d ∈ ['3', '9'], d.isDigit = true := List.all_eq_true.mp (by decide)
  rw [he, decode_control hd hn, decode_uncontrolled h, decode_control hreset (by decide)]

theorem exists_style_terminal (slot : Slot) : ∃ code : String,
    (∀ d ∈ code.toList, d.isDigit = true) ∧ code.toList ≠ [] ∧
      ∀ raw, Palette.terminal.style slot raw = Palette.colored code raw := by
  cases slot <;> exact ⟨_, List.all_eq_true.mp (by decide), by decide, fun _ => rfl⟩

/-- A screen shows the text of its pieces, if none of them can hold a control sequence. -/
theorem textOf_terminal {pieces : List Piece} (h : AreUncontrolled pieces) :
    textOf (Palette.terminal.wrap (String.ofList (shownIn .terminal pieces))).toList =
      pieces.flatMap Piece.raw := by
  have hp : decode control? (shownIn .terminal pieces ++ []) =
      (pieces.flatMap Piece.raw).flatMap (fun c => [c]) ++ decode control? [] := by
    refine decode_shownIn (fun slot raw hm rest => ?_) []
    obtain ⟨code, hd, hn, hs⟩ := exists_style_terminal slot
    rw [hs, List.flatMap_singleton']
    exact decode_colored hd hn (h _ hm) rest
  rw [decode_nil, List.append_nil, List.append_nil, List.flatMap_singleton'] at hp
  have hw : (Palette.terminal.wrap (String.ofList (shownIn .terminal pieces))).toList =
      shownIn .terminal pieces := String.toList_ofList
  rw [textOf, hw, hp]

end Terminal

theorem areUncontrolled_nil : AreUncontrolled [] := fun _ h => absurd h List.not_mem_nil

theorem areUncontrolled_cons {piece : Piece} {pieces : List Piece} :
    AreUncontrolled (piece :: pieces) ↔ IsUncontrolled piece.raw ∧ AreUncontrolled pieces :=
  List.forall_mem_cons

theorem areUncontrolled_append {s t : List Piece} :
    AreUncontrolled (s ++ t) ↔ AreUncontrolled s ∧ AreUncontrolled t :=
  List.forall_mem_append

theorem areUncontrolled_singleton {piece : Piece} (h : IsUncontrolled piece.raw) :
    AreUncontrolled [piece] :=
  areUncontrolled_cons.mpr ⟨h, areUncontrolled_nil⟩

theorem isUncontrolled_literal (c : Char) : IsUncontrolled (Piece.literal c).raw := by
  show IsUncontrolled (Piece.literalText c).toList
  unfold Piece.literalText
  split
  case h_6 => exact Or.inr (by simp)
  all_goals exact by decide

theorem isUncontrolled_number (slot : Slot) (n : Nat) :
    IsUncontrolled (Piece.text slot (toString n)).raw := by
  refine Or.inl fun hm => ?_
  have hd : '\x1b' ∈ Nat.toDigits 10 n := by simpa [Piece.raw] using hm
  exact absurd (Nat.isDigit_of_mem_toDigits (by decide) (by decide) hd) (by decide)

theorem areUncontrolled_count (n : Nat) : AreUncontrolled (Piece.count n) := by
  simp only [Piece.count, areUncontrolled_cons]
  exact ⟨by decide, isUncontrolled_number _ n, by decide, areUncontrolled_nil⟩

theorem areUncontrolled_quantifier (q : Quantifier) : AreUncontrolled (Piece.quantifier q) := by
  have hbounds : AreUncontrolled (Piece.bounds q.min q.max) := by
    unfold Piece.bounds
    split
    case h_1 =>
      split
      case isTrue => exact areUncontrolled_singleton (by decide)
      case isFalse =>
        split
        case isTrue => exact areUncontrolled_singleton (by decide)
        case isFalse =>
          simp only [areUncontrolled_cons]
          exact ⟨by decide, isUncontrolled_number _ _, by decide, by decide, areUncontrolled_nil⟩
    case h_2 max =>
      split
      case isTrue => exact areUncontrolled_singleton (by decide)
      case isFalse =>
        split
        case isTrue => exact areUncontrolled_count _
        case isFalse =>
          simp only [areUncontrolled_cons]
          exact ⟨by decide, isUncontrolled_number _ _, by decide, isUncontrolled_number _ _,
            by decide, areUncontrolled_nil⟩
  refine areUncontrolled_append.mpr ⟨hbounds, ?_⟩
  split
  · exact areUncontrolled_singleton (by decide)
  · exact areUncontrolled_nil

theorem areUncontrolled_check (wrong : Bool) (defect : Defect) :
    AreUncontrolled (Piece.check wrong defect) := by
  cases wrong
  · exact areUncontrolled_nil
  · exact areUncontrolled_singleton (Or.inl List.not_mem_nil)

theorem areUncontrolled_between {first last : Piece} {pieces : List Piece}
    (hf : IsUncontrolled first.raw) (h : AreUncontrolled pieces) (hl : IsUncontrolled last.raw) :
    AreUncontrolled (first :: pieces ++ [last]) :=
  areUncontrolled_append.mpr ⟨areUncontrolled_cons.mpr ⟨hf, h⟩, areUncontrolled_singleton hl⟩

mutual

theorem Token.areUncontrolled : ∀ token : Token, AreUncontrolled token.pieces
  | .literal c => areUncontrolled_singleton (isUncontrolled_literal c)
  | .anchor a => areUncontrolled_singleton (by cases a <;> decide)
  | .group items => areUncontrolled_between (by decide) (listUncontrolled items) (by decide)
  | .charClass items => by
    refine areUncontrolled_append.mpr ⟨areUncontrolled_check _ _, ?_⟩
    split
    · exact areUncontrolled_between (by decide) (listUncontrolled items) (by decide)
    · exact listUncontrolled items
  | .charRange lo hi =>
    areUncontrolled_between (isUncontrolled_literal lo) (areUncontrolled_singleton (by decide))
      (isUncontrolled_literal hi)
  | .category c => areUncontrolled_singleton (by cases c <;> decide)
  | .repeated q body =>
    areUncontrolled_append.mpr ⟨areUncontrolled_append.mpr ⟨areUncontrolled_check _ _,
      Token.areUncontrolled body⟩, areUncontrolled_quantifier q⟩
  | .alternation branches =>
    areUncontrolled_append.mpr ⟨areUncontrolled_check _ _, branchUncontrolled branches⟩
  | .wildcard => areUncontrolled_singleton (by decide)
  | .unrendered _ => areUncontrolled_singleton (Or.inl List.not_mem_nil)

theorem listUncontrolled : ∀ tokens : List Token, AreUncontrolled (Token.listPieces tokens)
  | [] => areUncontrolled_nil
  | token :: tokens =>
    areUncontrolled_append.mpr ⟨Token.areUncontrolled token, listUncontrolled tokens⟩

theorem branchUncontrolled : ∀ branches : List (List Token),
    AreUncontrolled (Token.branchPieces branches)
  | [] => areUncontrolled_nil
  | [branch] => listUncontrolled branch
  | branch :: next :: branches =>
    areUncontrolled_append.mpr ⟨listUncontrolled branch,
      areUncontrolled_cons.mpr ⟨by decide, branchUncontrolled (next :: branches)⟩⟩

end

theorem areUncontrolled_sample (sample : Sample) : AreUncontrolled sample.pieces := by
  have hspace : AreUncontrolled Piece.bracketedSpace := by
    simp only [Piece.bracketedSpace, areUncontrolled_cons]
    exact ⟨by decide, by decide, by decide, areUncontrolled_nil⟩
  refine areUncontrolled_append.mpr ⟨areUncontrolled_append.mpr ⟨?_, listUncontrolled _⟩, ?_⟩
  · unfold Sample.leadingPieces
    split
    case h_1 => exact areUncontrolled_nil
    case h_2 => exact hspace
    case h_3 => exact areUncontrolled_append.mpr ⟨hspace, areUncontrolled_count _⟩
  · unfold Sample.trailingPieces
    split
    case h_1 => exact areUncontrolled_nil
    case h_2 => exact hspace
    case h_3 => exact areUncontrolled_cons.mpr ⟨by decide, areUncontrolled_count _⟩

/-- A sample fails in all targets with the same error, or in all of them its rendering shows the
text of the plain one once the marks of the target are taken away. -/
theorem renderSample_targets (sample : Sample) (strict : Bool) :
    (∃ e, ∀ target, (Renderer.ofTarget target strict).renderSample sample = .error e) ∨
    ∃ shown : Target → String,
      (∀ target, (Renderer.ofTarget target strict).renderSample sample = .ok (shown target)) ∧
      Html.textOf (shown .html).toList =
        "\n\n".toList ++ (shown .plain).toList ++ "\n\n".toList ∧
      Terminal.textOf (shown .terminal).toList = (shown .plain).toList ∧
      Tex.textOf (shown .latex).toList = (shown .plain).toList := by
  rcases renderPieces_cases strict sample.pieces with ⟨e, he⟩ | hr
  · exact Or.inl ⟨e, fun target => he target.palette⟩
  · right
    refine ⟨fun target => target.palette.wrap (String.ofList (shownIn target.palette sample.pieces)),
      fun target => hr target.palette, ?_⟩
    have hplain : (Palette.plain.wrap (String.ofList (shownIn .plain sample.pieces))).toList =
        sample.pieces.flatMap Piece.raw := calc
      _ = shownIn .plain sample.pieces := String.toList_ofList
      _ = sample.pieces.flatMap Piece.raw := shownIn_plain _
    simp only [Target.palette]
    rw [hplain]
    exact ⟨Html.textOf_html _, Terminal.textOf_terminal (areUncontrolled_sample sample),
      Tex.textOf_latex _⟩

end RegexTypeset
