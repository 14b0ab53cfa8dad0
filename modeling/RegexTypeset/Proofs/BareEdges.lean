import RegexTypeset.Proofs.HiddenQuantifier
import RegexTypeset.Proofs.LeftOut

/-! # Spaces that stay bare at an edge

A rendering is to show the spaces at its edges in brackets or with a count. It ends with a
bare space in three cases: a branch of the outermost alternation ends with it, a construct
that is left out stands behind it, or the text shows leading spaces and all tokens are
spaces. It starts with one in the first two cases, or if a quantifier follows.
-/
namespace RegexTypeset

open EdgeSpaces (startsWithQuantifier)
open Token

theorem startsWithQuantifier_shown {q : Quantifier} (h : q.isReversed = false) (more : List Char) :
    startsWithQuantifier ((Piece.quantifier q).flatMap Piece.raw ++ more) = true := by
  obtain ⟨c, text, hc, -, hs⟩ := @Lexeme.solid_quantifier q h [] (Or.inr (by simp))
  have hq := Lexeme.startsWithQuantifier_of_solid hs
  rw [List.append_nil, ← hc] at hq
  exact startsWithQuantifier_append hq more

theorem getLast?_count (n : Nat) : ((Piece.count n).flatMap Piece.raw).getLast? = some '}' := by
  simp [Piece.count, Piece.raw, List.getLast?_cons]

theorem getLast?_bounds (min : UInt32) (max : Option UInt32) :
    ∃ c ∈ ['*', '+', '?', '}'], ((Piece.bounds min max).flatMap Piece.raw).getLast? = some c := by
  unfold Piece.bounds
  repeat' split
  · exact ⟨'*', by decide, rfl⟩
  · exact ⟨'+', by decide, rfl⟩
  · exact ⟨'}', by decide, by simp [Piece.raw, List.getLast?_cons]⟩
  · exact ⟨'?', by decide, rfl⟩
  · exact ⟨'}', by decide, getLast?_count _⟩
  · exact ⟨'}', by decide, by simp [Piece.raw, List.getLast?_cons]⟩

theorem getLast?_quantifier (q : Quantifier) :
    ∃ c ∈ ['*', '+', '?', '}'], ((Piece.quantifier q).flatMap Piece.raw).getLast? = some c := by
  rcases q with ⟨min, max, isLazy⟩
  cases isLazy with
  | false => simpa [Piece.quantifier] using getLast?_bounds min max
  | true => exact ⟨'?', by decide, by simp [Piece.quantifier, Piece.raw]⟩

namespace Token

def isUnrendered : Token → Bool
  | .unrendered _ => true
  | _ => false

def visible (items : List Token) : List Token := items.filter fun token => !token.isUnrendered

theorem exists_of_isUnrendered {token : Token} (h : token.isUnrendered = true) :
    ∃ construct, token = .unrendered construct := by
  cases token <;> first | exact ⟨_, rfl⟩ | cases h

end Token

theorem shown_literal_space : (literal ' ').shown = [' '] := rfl

/-- The first and the last character of a class are brackets or those of a category. -/
theorem edges_charClass {items : List Token} (h : IsClass items) :
    ∃ c d, c ≠ ' ' ∧ d ≠ ' ' ∧ (charClass items).shown.head? = some c ∧
      (charClass items).shown.getLast? = some d := by
  have he : items.isEmpty = false := by simpa using h.nonempty
  by_cases hb : needsBrackets items = true
  · refine ⟨'[', ']', by decide, by decide, ?_, ?_⟩
    · simp [shown, pieces, he, hb, Piece.check, Piece.raw]
    · simp [shown, pieces, he, hb, Piece.check, Piece.raw, List.getLast?_cons]
  · obtain ⟨item, rfl⟩ : ∃ item, items = [item] := by
      rcases items with _ | ⟨item, _ | ⟨next, items⟩⟩
      · exact absurd rfl h.nonempty
      · exact ⟨item, rfl⟩
      · exact absurd (by simp [needsBrackets]) hb
    have hm := h.members item List.mem_cons_self
    cases item <;> simp only [IsMember] at hm
    case literal c => exact absurd rfl (h.not_lone c)
    case charRange => exact absurd rfl hb
    case category category =>
      cases category <;> exact ⟨'\\', _, by decide, by decide, rfl, rfl⟩

theorem edges_leaf {token : Token} (hv : token.isUnrendered = false) (h : ReadLeaf token) :
    token.shown ≠ [] ∧ (token.shown.getLast? = some ' ' → token = .literal ' ') ∧
      (token.shown.head? = some ' ' → token = .literal ' ') := by
  cases token <;> simp only [ReadLeaf] at h
  case literal c =>
    rw [shown_literal]
    rcases literalText_cases c with hc | ⟨letter, hc, hl⟩
    · rw [hc]
      simp
    · have hs : letter ≠ ' ' := by
        rintro rfl
        cases hl
      rw [hc]
      simp [hs]
  case anchor a => cases a <;> simp [shown_anchor, Anchor.symbol]
  case category c => cases c <;> simp [shown_category, Category.symbol]
  case wildcard => simp [shown, pieces, Piece.raw]
  case charClass items =>
    obtain ⟨c, d, hc, hd, hh, hl⟩ := edges_charClass h
    refine ⟨fun he => ?_, fun he => ?_, fun he => ?_⟩
    · rw [he] at hh
      cases hh
    · exact absurd (Option.some.inj (hl.symm.trans he)) hd
    · exact absurd (Option.some.inj (hh.symm.trans he)) hc
  case unrendered => cases hv

/-- A quantifier leaves a text that starts with its sign and ends with no space. -/
theorem edges_repeated {q : Quantifier} (hq : q.isReversed = false) (body : Token) :
    (Token.repeated q body).shown ≠ [] ∧ (Token.repeated q body).shown.getLast? ≠ some ' ' ∧
      ((Token.repeated q body).shown.head? = some ' ' →
        body.isUnrendered = false ∧ (body.shown ≠ [] → body.shown.head? = some ' ')) := by
  obtain ⟨d, hd, hl⟩ := getLast?_quantifier q
  have hs := startsWithQuantifier_shown hq []
  have hne := quantifier_ne_nil hq
  rw [List.append_nil] at hs
  rw [shown_repeated]
  refine ⟨fun he => hne (List.append_eq_nil_iff.mp he).2, fun he => ?_, fun he => ⟨?_, fun hb => ?_⟩⟩
  · rw [List.getLast?_append, hl, Option.some_or, Option.some.injEq] at he
    rw [he] at hd
    exact absurd hd (by decide)
  · by_contra hu
    rw [Bool.not_eq_false] at hu
    obtain ⟨construct, rfl⟩ := exists_of_isUnrendered hu
    have hz : (unrendered construct).shown = [] := rfl
    rw [hz, List.nil_append] at he
    obtain ⟨text, ht⟩ := List.head?_eq_some_iff.mp he
    rw [ht] at hs
    exact absurd (Lexeme.sign_of_startsWithQuantifier hs) (by decide)
  · rwa [List.head?_append, Option.or_of_isSome (List.isSome_head?.mpr hb)] at he

/-- An item that leaves a text has a space at an edge only if it is one or repeats one. -/
theorem edges_item {token : Token} (hv : token.isUnrendered = false) (h : Item ReadLeaf token) :
    token.shown ≠ [] ∧ (token.shown.getLast? = some ' ' → token = .literal ' ') ∧
      (token.shown.head? = some ' ' → token = .literal ' ' ∨
        ∃ q, q.isReversed = false ∧ token = .repeated q (.literal ' ')) := by
  cases h with
  | leaf h =>
    obtain ⟨hn, hl, hh⟩ := edges_leaf hv h
    exact ⟨hn, hl, fun he => Or.inl (hh he)⟩
  | group h => simp [shown_group, List.getLast?_cons]
  | @repeated q body hq hr h =>
    obtain ⟨hn, hl, hh⟩ := edges_repeated hq body
    refine ⟨hn, fun he => absurd he hl, fun he => ?_⟩
    obtain ⟨hu, hh⟩ := hh he
    -- what is repeated is no repetition itself, so it is a leaf or a group
    cases h with
    | leaf h =>
      obtain ⟨hn, -, hb⟩ := edges_leaf hu h
      rw [hb (hh hn)]
      exact Or.inr ⟨q, hq, rfl⟩
    | group h =>
      have hg := hh (by simp [shown_group])
      simp [shown_group] at hg
    | repeated => cases hr

theorem listShown_append (s t : List Token) : listShown (s ++ t) = listShown s ++ listShown t := by
  induction s with
  | nil => rfl
  | cons token s ih => simp [ih]

theorem listShown_visible (items : List Token) : listShown (visible items) = listShown items := by
  induction items with
  | nil => rfl
  | cons token items ih =>
    by_cases hu : token.isUnrendered = true
    · obtain ⟨construct, rfl⟩ := exists_of_isUnrendered hu
      exact ih
    · rw [listShown_cons, ← ih, visible, visible, List.filter_cons_of_pos (by simpa using hu),
        listShown_cons]

theorem item_of_mem_visible {items : List Token} (h : ∀ token ∈ items, Item ReadLeaf token)
    {token : Token} (ht : token ∈ visible items) :
    token.isUnrendered = false ∧ Item ReadLeaf token := by
  obtain ⟨hm, hv⟩ := List.mem_filter.mp ht
  exact ⟨by simpa using hv, h token hm⟩

/-- The text of items ends with a space if the last item that leaves a text is one. -/
theorem getLast?_listShown {items : List Token} (h : ∀ token ∈ items, Item ReadLeaf token) :
    (listShown items).getLast? = some ' ' ↔ (visible items).getLast? = some (.literal ' ') := by
  rw [← listShown_visible]
  rcases List.eq_nil_or_concat (visible items) with he | ⟨front, token, he⟩
  · rw [he]
    simp
  · have hm : token ∈ visible items := by simp [he]
    obtain ⟨hv, hi⟩ := item_of_mem_visible h hm
    obtain ⟨hne, hl, -⟩ := edges_item hv hi
    rw [he, List.concat_eq_append, listShown_append, listShown_cons, listShown_nil, List.append_nil,
      List.getLast?_append, Option.or_of_isSome (List.getLast?_isSome.mpr hne), List.getLast?_concat,
      Option.some.injEq]
    refine ⟨hl, ?_⟩
    rintro rfl
    rfl

/-- If the text of items starts with a space, a quantifier follows it or the first item that
leaves a text is a space. -/
theorem head_listShown {items : List Token} (h : ∀ token ∈ items, Item ReadLeaf token)
    {more rest : List Char} (hr : listShown items ++ more = ' ' :: rest) :
    listShown items = [] ∨ startsWithQuantifier rest = true ∨
      (visible items).head? = some (.literal ' ') := by
  rw [← listShown_visible] at hr ⊢
  cases he : visible items with
  | nil => exact Or.inl rfl
  | cons token tokens =>
    obtain ⟨hv, hi⟩ := item_of_mem_visible h (he ▸ List.mem_cons_self)
    obtain ⟨hne, -, hh⟩ := edges_item hv hi
    rw [he, listShown_cons, List.append_assoc] at hr
    have hs : token.shown.head? = some ' ' := by
      have ht := congrArg List.head? hr
      rwa [List.head?_append, Option.or_of_isSome (List.isSome_head?.mpr hne)] at ht
    right
    rcases hh hs with rfl | ⟨q, hq, rfl⟩
    · exact Or.inr rfl
    · left
      rw [shown_repeated, shown_literal_space, List.append_assoc, List.singleton_append,
        List.cons.injEq] at hr
      rw [← hr.2]
      exact startsWithQuantifier_shown hq _

/-- A space in front of all else that is visible starts the text. -/
theorem listShown_of_head {items : List Token} (h : (visible items).head? = some (.literal ' ')) :
    ∃ rest, listShown items = ' ' :: rest := by
  obtain ⟨tail, ht⟩ := List.head?_eq_some_iff.mp h
  rw [← listShown_visible, ht, listShown_cons, shown_literal_space]
  exact ⟨_, rfl⟩

theorem branchShown_concat {front : List (List Token)} (h : front ≠ []) (last : List Token) :
    ∃ text, branchShown (front ++ [last]) = text ++ '|' :: listShown last := by
  induction front with
  | nil => exact absurd rfl h
  | cons branch front ih =>
    cases front with
    | nil => exact ⟨listShown branch, branchShown_cons branch last []⟩
    | cons next front =>
      obtain ⟨text, ht⟩ := ih (List.cons_ne_nil _ _)
      refine ⟨listShown branch ++ '|' :: text, ?_⟩
      rw [List.cons_append, List.cons_append, branchShown_cons, ← List.cons_append, ht]
      simp

theorem getLast?_branchShown {front : List (List Token)} (h : front ≠ []) {last : List Token}
    (hl : ∀ token ∈ last, Item ReadLeaf token) :
    (branchShown (front ++ [last])).getLast? = some ' ' ↔
      (visible last).getLast? = some (.literal ' ') := by
  obtain ⟨text, ht⟩ := branchShown_concat h last
  rw [← getLast?_listShown hl, ht, List.getLast?_append, List.getLast?_cons]
  cases (listShown last).getLast? with
  | none => simp
  | some c => simp

theorem getLast?_leadingPieces (n : Nat) :
    ((Sample.leadingPieces n).flatMap Piece.raw).getLast? ≠ some ' ' := by
  rcases n with _ | _ | n
  · simp [Sample.leadingPieces]
  · simp [Sample.leadingPieces, Piece.bracketedSpace, Piece.raw]
  · simp [Sample.leadingPieces, getLast?_count]

theorem head?_leadingPieces {n : Nat} (h : n ≠ 0) :
    ((Sample.leadingPieces n).flatMap Piece.raw).head? = some '[' := by
  rcases n with _ | _ | n
  · exact absurd rfl h
  · rfl
  · rfl

theorem getLast?_trailingPieces {n : Nat} (h : n ≠ 0) :
    ∃ c, c ≠ ' ' ∧ ((Sample.trailingPieces n).flatMap Piece.raw).getLast? = some c := by
  rcases n with _ | _ | n
  · exact absurd rfl h
  · exact ⟨']', by decide, rfl⟩
  · exact ⟨'}', by decide, by simp [Sample.trailingPieces, Piece.raw, List.getLast?_cons, getLast?_count]⟩

/-- Trailing spaces that start with a bare one have a count behind it. -/
theorem startsWithQuantifier_trailingPieces {n : Nat} {rest : List Char}
    (h : (Sample.trailingPieces n).flatMap Piece.raw = ' ' :: rest) :
    startsWithQuantifier rest = true := by
  rcases n with _ | _ | n
  · cases h
  · cases h
  · have hr : rest = '{' :: (Nat.toDigits 10 (n + 2) ++ ['}']) := by
      simpa [Sample.trailingPieces, Piece.count, Piece.raw, eq_comm] using h
    have hs := Count.scan?_written (Count.isProper_exact (n + 2)) []
    rw [Count.written_append] at hs
    rw [hr]
    show (Count.scan? _).isSome = true
    simpa [Count.inner] using congrArg Option.isSome hs

namespace Sample

def shownText (sample : Sample) : List Char :=
  (leadingPieces sample.spaces.leading).flatMap Piece.raw ++
    (listShown sample.tokens ++ (trailingPieces sample.spaces.trailing).flatMap Piece.raw)

theorem renderSample_lenient {sample : Sample} (h : Content ReadLeaf sample.tokens) :
    (Renderer.ofTarget .plain false).renderSample sample = .ok (String.ofList sample.shownText) := by
  refine (renderPieces_lenient fun defect hm => ?_).trans ?_
  · simp only [pieces, List.mem_append] at hm
    rcases hm with (hm | hm) | hm
    · cases isText_leadingPieces _ _ hm
    · exact not_malformed_of_content h defect hm
    · cases isText_trailingPieces _ _ hm
  · simp [pieces, shownText, listShown]

theorem getLast?_shownText (sample : Sample) :
    sample.shownText.getLast? = some ' ' ↔
      sample.spaces.trailing = 0 ∧ (listShown sample.tokens).getLast? = some ' ' := by
  have hl := getLast?_leadingPieces sample.spaces.leading
  rw [shownText, List.getLast?_append, List.getLast?_append]
  by_cases ht : sample.spaces.trailing = 0
  · have hz : (trailingPieces sample.spaces.trailing).flatMap Piece.raw = [] := by rw [ht]; rfl
    rw [hz]
    cases (listShown sample.tokens).getLast? with
    | none => simpa [ht] using hl
    | some c => simp [ht]
  · obtain ⟨c, hc, hs⟩ := getLast?_trailingPieces ht
    simp [hs, hc, ht]

/-- Leading spaces that are counted start with a bracket. -/
theorem leading_of_shownText {sample : Sample} {rest : List Char}
    (h : sample.shownText = ' ' :: rest) :
    sample.spaces.leading = 0 ∧
      listShown sample.tokens ++ (trailingPieces sample.spaces.trailing).flatMap Piece.raw =
        ' ' :: rest := by
  have hz : sample.spaces.leading = 0 := by
    by_contra hl
    have hh := congrArg List.head? h
    rw [shownText, List.head?_append, head?_leadingPieces hl] at hh
    cases hh
  refine ⟨hz, ?_⟩
  rw [shownText, hz] at h
  exact h

/-- A rendering of the sample ends with a space that is neither in brackets nor counted. -/
inductive BareEnd (sample : Sample) : Prop
  /-- The last branch ends with it. -/
  | branch {branches : List (List Token)} {last : List Token} (uncounted : sample.spaces.trailing = 0)
      (tokens : sample.tokens = [.alternation (branches ++ [last])])
      (space : (visible last).getLast? = some (.literal ' '))
  /-- A construct that is left out stands behind it. -/
  | behind {items : List Token} {construct : Construct} (uncounted : sample.spaces.trailing = 0)
      (tokens : sample.tokens = items ++ [.unrendered construct])
      (space : (visible items).getLast? = some (.literal ' '))
  /-- All tokens are spaces, and other ones are counted as leading. -/
  | spaces (uncounted : sample.spaces.trailing = 0) (leading : sample.spaces.leading ≠ 0)
      (nonempty : sample.tokens ≠ []) (all : ∀ token ∈ sample.tokens, token = .literal ' ')

inductive BareStart (sample : Sample) : Prop
  /-- The first branch starts with it. -/
  | branch {first : List Token} {branches : List (List Token)}
      (uncounted : sample.spaces.leading = 0)
      (tokens : sample.tokens = [.alternation (first :: branches)])
      (space : (visible first).head? = some (.literal ' '))
  /-- A construct that is left out stands before it. -/
  | behind {construct : Construct} {items : List Token} (uncounted : sample.spaces.leading = 0)
      (tokens : sample.tokens = .unrendered construct :: items)
      (space : (visible items).head? = some (.literal ' '))

section
variable {pattern : Pattern} {shown : EdgeSpaces}

theorem spaces_of_trailing {items : List Token}
    (hz : (ofPattern pattern shown).spaces.trailing = 0)
    (hl : (ofPattern pattern shown).tokens = items ++ [.literal ' ']) :
    (ofPattern pattern shown).spaces.leading ≠ 0 ∧
      ∀ token ∈ (ofPattern pattern shown).tokens, token = .literal ' ' := by
  let found := EdgeSpaces.ofTokens pattern.tokens
  let edges := hidden shown pattern.tokens
  obtain ⟨hs, he⟩ : shown.trailing = 0 ∧ edges.trailing = 0 := Nat.add_eq_zero_iff.mp hz
  have hf : found.trailing = 0 := by simpa [edges, hidden, hs] using he
  have hd : (ofPattern pattern shown).tokens = pattern.tokens.drop edges.leading := by
    show (pattern.tokens.drop edges.leading).take
      ((pattern.tokens.drop edges.leading).length - edges.trailing) = _
    rw [he, Nat.sub_zero, List.take_length]
  rw [hd] at hl ⊢
  have hlast : pattern.tokens.getLast? = some (.literal ' ') := by
    have ht := congrArg List.getLast? hl
    rw [List.getLast?_concat, List.getLast?_drop] at ht
    split at ht
    · cases ht
    · exact ht
  -- behind the leading spaces the last token would be counted
  have hall : pattern.tokens.length ≤ found.leading := by
    by_contra hn
    have ht : (pattern.tokens.drop found.leading).reverse.head? = some (.literal ' ') := by
      rw [List.head?_reverse, List.getLast?_drop, if_neg hn, hlast]
    obtain ⟨tail, ht⟩ := List.head?_eq_some_iff.mp ht
    have hc : found.trailing =
        ((pattern.tokens.drop found.leading).reverse.takeWhile Token.isSpace).length := rfl
    rw [hc, ht] at hf
    cases hf
  have ht : pattern.tokens.takeWhile Token.isSpace = pattern.tokens :=
    (List.takeWhile_prefix _).eq_of_length_le hall
  constructor
  · intro hn
    obtain ⟨hs', he'⟩ : shown.leading = 0 ∧ edges.leading = 0 := Nat.add_eq_zero_iff.mp hn
    have hf' : found.leading = 0 := by simpa [edges, hidden, hs'] using he'
    rw [hf', Nat.le_zero, List.length_eq_zero_iff] at hall
    rw [hall, List.drop_nil] at hl
    simp at hl
  · intro token hm
    have hp := List.all_eq_true.mp (List.all_takeWhile (p := Token.isSpace) (l := pattern.tokens))
    rw [ht] at hp
    exact EdgeSpaces.eq_literal_space token (hp token (List.mem_of_mem_drop hm))

theorem head?_of_leading (hz : (ofPattern pattern shown).spaces.leading = 0) :
    (ofPattern pattern shown).tokens.head? ≠ some (.literal ' ') := by
  let edges := hidden shown pattern.tokens
  obtain ⟨hs, he⟩ : shown.leading = 0 ∧ edges.leading = 0 := Nat.add_eq_zero_iff.mp hz
  have hf : (pattern.tokens.takeWhile Token.isSpace).length = 0 := by
    simpa [edges, hidden, hs, EdgeSpaces.ofTokens] using he
  have hp : (ofPattern pattern shown).tokens <+: pattern.tokens := by
    show (pattern.tokens.drop edges.leading).take _ <+: _
    rw [he, List.drop_zero]
    exact List.take_prefix _ _
  intro hh
  obtain ⟨tail, ht⟩ := List.head?_eq_some_iff.mp hh
  obtain ⟨more, hm⟩ := hp
  rw [← hm, ht] at hf
  cases hf

/-- An edge where no spaces are counted has no literal space, or there are spaces only and those
at the other edge are counted. -/
structure IsCounted (sample : Sample) : Prop where
  trailing : sample.spaces.trailing = 0 → ∀ items, sample.tokens = items ++ [.literal ' '] →
    sample.spaces.leading ≠ 0 ∧ ∀ token ∈ sample.tokens, token = .literal ' '
  leading : sample.spaces.leading = 0 → sample.tokens.head? ≠ some (.literal ' ')

theorem isCounted_ofPattern : (ofPattern pattern shown).IsCounted :=
  ⟨fun hz _ hl => spaces_of_trailing hz hl, head?_of_leading⟩

end

theorem visible_concat_unrendered (items : List Token) (construct : Construct) :
    visible (items ++ [.unrendered construct]) = visible items := by
  simp [visible, isUnrendered]

theorem visible_concat {token : Token} (h : token.isUnrendered = false) (items : List Token) :
    visible (items ++ [token]) = visible items ++ [token] := by
  simp [visible, h]

variable {sample : Sample}

/-- Content that is not one alternation is a list of items. -/
theorem items_of_content {tokens : List Token} (h : Content ReadLeaf tokens) (hs : IsSequence tokens) :
    ∀ token ∈ tokens, Item ReadLeaf token := by
  cases h with
  | sequence hi => exact hi
  | alternation => exact absurd rfl (hs _)

theorem branches_of_content {branches : List (List Token)}
    (h : Content ReadLeaf [.alternation branches]) :
    2 ≤ branches.length ∧ ∀ branch ∈ branches, ∀ token ∈ branch, Item ReadLeaf token := by
  cases h with
  | sequence hi => exact absurd rfl (isSequence_of_read hi branches)
  | alternation hn hb => exact ⟨hn, hb⟩

/-- The text of content ends with a space if that of the last branch or that of the items does. -/
theorem getLast?_of_bareEnd (h : Content ReadLeaf sample.tokens) (he : sample.BareEnd) :
    (listShown sample.tokens).getLast? = some ' ' := by
  cases he with
  | @branch branches last hz ht hs =>
    rw [ht] at h ⊢
    obtain ⟨hn, hb⟩ := branches_of_content h
    have hne : branches ≠ [] := by
      rintro rfl
      simp at hn
    rw [listShown_alternation, getLast?_branchShown hne (hb last (by simp))]
    exact hs
  | @behind items construct hz ht hs =>
    rw [ht] at h ⊢
    have hi := items_of_content h fun branches hb => by
      have hl := congrArg List.getLast? hb
      rw [List.getLast?_concat] at hl
      cases hl
    rw [getLast?_listShown hi, visible_concat_unrendered]
    exact hs
  | spaces hz hn hne ha =>
    obtain ⟨token, hl⟩ := Option.isSome_iff_exists.mp (List.getLast?_isSome.mpr hne)
    obtain ⟨front, hf⟩ := List.getLast?_eq_some_iff.mp hl
    obtain rfl : token = .literal ' ' := ha token (hf ▸ by simp)
    rw [hf, listShown_append, listShown_cons, listShown_nil, List.append_nil, List.getLast?_append]
    rfl

theorem getLast?_iff_bareEnd (h : Content ReadLeaf sample.tokens) (hc : sample.IsCounted) :
    sample.shownText.getLast? = some ' ' ↔ sample.BareEnd := by
  rw [getLast?_shownText]
  refine ⟨?_, fun he => ⟨by cases he <;> assumption, getLast?_of_bareEnd h he⟩⟩
  rcases sample with ⟨tokens, spaces, flags⟩
  rintro ⟨hz, hl⟩
  cases h with
  | alternation hn hb =>
    obtain ⟨first, middle, last, rfl⟩ := exists_first_last hn
    rw [listShown_alternation, getLast?_branchShown (List.cons_ne_nil _ _) (hb last (by simp))] at hl
    exact .branch hz rfl hl
  | sequence hi =>
    rw [getLast?_listShown hi] at hl
    rcases List.eq_nil_or_concat tokens with rfl | ⟨front, token, rfl⟩
    · cases hl
    · rw [List.concat_eq_append] at hl hc ⊢
      cases hu : token.isUnrendered with
      | true =>
        obtain ⟨construct, rfl⟩ := exists_of_isUnrendered hu
        rw [visible_concat_unrendered] at hl
        exact .behind hz rfl hl
      | false =>
        rw [visible_concat hu, List.getLast?_concat, Option.some.injEq] at hl
        subst hl
        obtain ⟨hn, ha⟩ := hc.trailing hz front rfl
        exact .spaces hz hn (by simp) ha

theorem exists_rest_of_bareStart (h : Content ReadLeaf sample.tokens) (hb : sample.BareStart) :
    ∃ rest, sample.shownText = ' ' :: rest := by
  obtain ⟨hz, rest, hr⟩ : sample.spaces.leading = 0 ∧ ∃ rest, listShown sample.tokens = ' ' :: rest := by
    cases hb with
    | @branch first branches hz ht hs =>
      rw [ht] at h ⊢
      obtain ⟨hn, -⟩ := branches_of_content h
      obtain ⟨rest, hr⟩ := listShown_of_head hs
      cases branches with
      | nil => simp at hn
      | cons next branches =>
        rw [listShown_alternation, branchShown_cons, hr]
        exact ⟨hz, _, rfl⟩
    | @behind construct items hz ht hs =>
      rw [ht, listShown_cons]
      exact ⟨hz, listShown_of_head hs⟩
  rw [shownText, hz, hr]
  exact ⟨_, rfl⟩

theorem bareStart_of_shownText {rest : List Char} (h : Content ReadLeaf sample.tokens)
    (hc : sample.IsCounted) (hr : sample.shownText = ' ' :: rest)
    (hq : startsWithQuantifier rest = false) : sample.BareStart := by
  obtain ⟨hz, hr⟩ := leading_of_shownText hr
  rcases sample with ⟨tokens, spaces, flags⟩
  have hn : ¬ startsWithQuantifier rest = true := by simp [hq]
  cases h with
  | @alternation branches hl hb =>
    obtain ⟨first, next, more, rfl⟩ : ∃ first next more, branches = first :: next :: more := by
      rcases branches with _ | ⟨first, _ | ⟨next, more⟩⟩
      · simp at hl
      · simp at hl
      · exact ⟨first, next, more, rfl⟩
    rw [listShown_alternation, branchShown_cons, List.append_assoc] at hr
    rcases head_listShown (hb first List.mem_cons_self) hr with he | hs | hs
    · rw [he] at hr
      cases hr
    · exact absurd hs hn
    · exact .branch hz rfl hs
  | sequence hi =>
    rcases head_listShown hi hr with he | hs | hs
    · rw [he] at hr
      exact absurd (startsWithQuantifier_trailingPieces hr) hn
    · exact absurd hs hn
    · cases tokens with
      | nil => cases hs
      | cons token tokens =>
        cases hu : token.isUnrendered with
        | true =>
          obtain ⟨construct, rfl⟩ := exists_of_isUnrendered hu
          exact .behind hz rfl hs
        | false =>
          rw [visible, List.filter_cons_of_pos (by simp [hu]), List.head?_cons] at hs
          exact absurd hs (hc.leading hz)

/-- A rendered text ends with a space, or starts with one that is not quantified, exactly if its
sample has a bare one at this edge. -/
theorem bareEdges_of_renderText (text : String) (flags : Flags) (out : String)
    (h : (Renderer.ofTarget .plain false).renderText text flags = .ok out) :
    ∃ sample, ofText text flags = .ok sample ∧
      (out.toList.getLast? = some ' ' ↔ sample.BareEnd) ∧
      ((∃ rest, out.toList = ' ' :: rest ∧ startsWithQuantifier rest = false) ↔
        sample.BareStart ∧ startsWithQuantifier out.toList.tail = false) := by
  simp only [Renderer.renderText, ofText] at h ⊢
  split at h
  case h_1 => cases h
  case h_2 sample hs =>
    split at hs
    case h_1 => cases hs
    case h_2 pattern hp =>
      cases hs
      have hc := content_cut (Pattern.content_of_compile hp) (shown text pattern.flags)
      obtain rfl := Except.ok.inj ((renderSample_lenient hc).symm.trans h)
      rw [String.toList_ofList]
      refine ⟨_, rfl, getLast?_iff_bareEnd hc isCounted_ofPattern, ⟨?_, ?_⟩⟩
      · rintro ⟨rest, hr, hq⟩
        refine ⟨bareStart_of_shownText hc isCounted_ofPattern hr hq, ?_⟩
        rw [hr]
        exact hq
      · rintro ⟨hb, hq⟩
        obtain ⟨rest, hr⟩ := exists_rest_of_bareStart hc hb
        rw [hr] at hq
        exact ⟨rest, hr, hq⟩

/-- The space in brackets is neither counted as trailing nor cut off as leading. -/
theorem bareEdges_of_renderText_bracketed :
    (Renderer.ofTarget .plain false).renderText " [ ]" ∅ = .ok "[ ] " ∧
      ∃ sample, ofText " [ ]" ∅ = .ok sample ∧ sample.BareEnd := by
  have h : (Renderer.ofTarget .plain false).renderText " [ ]" ∅ = .ok "[ ] " := by decide +kernel
  obtain ⟨sample, hs, he, -⟩ := bareEdges_of_renderText " [ ]" ∅ "[ ] " h
  exact ⟨h, sample, hs, he.mp (by decide)⟩

end Sample

end RegexTypeset
