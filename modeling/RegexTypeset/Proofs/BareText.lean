import RegexTypeset.Proofs.LexemeExtent
import RegexTypeset.Proofs.PlainText

/-! # Text that is read as it is shown

The text of a leaf without metacharacters, and that of a quantifier, is one lexeme. A
leaf does not depend on what follows; a quantifier must not be followed by a question
mark unless it is lazy already.
-/
namespace RegexTypeset

def metacharacters : List Char := ['\\', '.', '^', '$', '*', '+', '?', '{', '[', '(', ')', '|']

def classMarks : List Char := ['\\', ']', '-', '^']

def Token.IsBareMember : Token → Prop
  | .literal c => c ∉ classMarks
  | .category _ => True
  | .charRange lo hi => lo ≤ hi ∧ lo ∉ classMarks ∧ hi ∉ classMarks
  | _ => False

def BareLeaf : Token → Prop
  | .literal c => c ∉ metacharacters
  | .anchor _ | .category _ | .wildcard => True
  | .charClass items =>
    (∀ item ∈ items, item.IsBareMember) ∧ (2 ≤ items.length ∨ ∃ lo hi, items = [.charRange lo hi])
  | _ => False

namespace Token

def shown (token : Token) : List Char := token.pieces.flatMap Piece.raw

def listShown (tokens : List Token) : List Char := (listPieces tokens).flatMap Piece.raw

@[simp] theorem listShown_nil : listShown [] = [] := rfl

@[simp] theorem listShown_cons (token : Token) (tokens : List Token) :
    listShown (token :: tokens) = token.shown ++ listShown tokens := by
  simp [listShown, listPieces, shown]

theorem listShown_eq_flatMap (tokens : List Token) : listShown tokens = tokens.flatMap shown := by
  induction tokens with
  | nil => rfl
  | cons token tokens ih => rw [listShown_cons, ih, List.flatMap_cons]

theorem shown_literal (c : Char) : (literal c).shown = (Piece.literalText c).toList := by
  simp [shown, pieces, Piece.literal, Piece.raw]

theorem shown_charRange (lo hi : Char) :
    (charRange lo hi).shown =
      (Piece.literalText lo).toList ++ '-' :: (Piece.literalText hi).toList := by
  simp [shown, pieces, Piece.literal, Piece.raw]

theorem shown_category (c : Category) : (category c).shown = c.symbol.toList := by
  simp [shown, pieces, Piece.raw]

theorem shown_anchor (a : Anchor) : (anchor a).shown = a.symbol.toList := by
  simp [shown, pieces, Piece.raw]

end Token

/-- A literal is shown as the character itself or as a backslash and a letter for a control
character. -/
theorem literalText_cases (c : Char) :
    (Piece.literalText c).toList = [c] ∨
      ∃ letter, (Piece.literalText c).toList = ['\\', letter] ∧ Escape.control? letter = some c := by
  unfold Piece.literalText
  split
  case h_1 => exact Or.inr ⟨'t', rfl, rfl⟩
  case h_2 => exact Or.inr ⟨'n', rfl, rfl⟩
  case h_3 => exact Or.inr ⟨'r', rfl, rfl⟩
  case h_4 => exact Or.inr ⟨'v', rfl, rfl⟩
  case h_5 => exact Or.inr ⟨'f', rfl, rfl⟩
  case h_6 => exact Or.inl (by simp)

/-- The letters of control characters name nothing else. -/
theorem item_of_control? {letter c : Char} (h : Escape.control? letter = some c) (rest : List Char) :
    Escape.item (letter :: rest) = .ok (.literal c, rest) ∧
      Escape.member (letter :: rest) = .ok (.literal c, rest) := by
  unfold Escape.control? at h
  split at h <;> cases h <;> exact ⟨rfl, rfl⟩

namespace CharClass

/-- A text that stands for a character in a class. It does not start with a sign that means
something between members. -/
def ReadsSingle (text : List Char) (c : Char) : Prop :=
  ∃ d more, text = d :: more ∧ d ∉ [']', '-', '^'] ∧
    ∀ rest, single d (more ++ rest) = .ok (.literal c, rest)

/-- A text that is read as a member of a class, up to a text that does not go on with a hyphen. -/
def ReadsMember (text : List Char) (item : Token) : Prop :=
  ∃ d more, text = d :: more ∧ d ∉ [']', '-', '^'] ∧
    ∀ rest, rest.head? ≠ some '-' → member d (more ++ rest) = .ok (item, rest)

theorem member_of_single {c : Char} {text rest : List Char} {token : Token}
    (h : single c text = .ok (token, rest)) (hr : rest.head? ≠ some '-') :
    member c text = .ok (token, rest) := by
  simp only [member, h]
  split
  case h_1 heq => cases heq
  case h_2 heq => cases heq; exact absurd rfl hr
  case h_3 heq => exact heq.symm

theorem ReadsSingle.literal {text : List Char} {c : Char} (h : ReadsSingle text c) :
    ReadsMember text (.literal c) := by
  obtain ⟨d, more, ht, hd, hs⟩ := h
  exact ⟨d, more, ht, hd, fun rest hr => member_of_single (hs rest) hr⟩

theorem readsMember_category (category : Category) :
    ReadsMember category.symbol.toList (.category category) := by
  cases category <;> exact ⟨'\\', [_], rfl, by decide, fun _ hr => member_of_single rfl hr⟩

theorem ReadsSingle.range {low high : List Char} {lo hi : Char} (hl : ReadsSingle low lo)
    (hh : ReadsSingle high hi) (hle : lo ≤ hi) :
    ReadsMember (low ++ '-' :: high) (.charRange lo hi) := by
  obtain ⟨d, text, rfl, hd, hs⟩ := hl
  obtain ⟨e, more, rfl, he, hs'⟩ := hh
  refine ⟨d, text ++ '-' :: e :: more, rfl, hd, fun rest _ => ?_⟩
  have hne : e ≠ ']' := fun h => he (h ▸ List.mem_cons_self)
  have hlt : ¬ hi < lo := Char.not_lt.mpr hle
  simp [member, hs, hne, CharClass.range, hs', hlt]

section
variable {text : Token → List Char} {items : List Token}

theorem members_written (h : ∀ item ∈ items, ReadsMember (text item) item)
    (opened rest : List Char) (first : Bool) (seen : List Token) (hf : first = false ∨ items ≠ []) :
    members opened first seen (items.flatMap text ++ ']' :: rest) =
      .ok (seen.reverse ++ items, rest) := by
  induction items generalizing first seen with
  | nil =>
    obtain rfl : first = false := by simpa using hf
    simp [members_cons]
  | cons item items ih =>
    have hn : (items.flatMap text ++ ']' :: rest).head? ≠ some '-' := by
      cases items with
      | nil => simp
      | cons next items =>
        obtain ⟨d, more, hd, hm, -⟩ := h next (by simp)
        have hne : d ≠ '-' := fun he => hm (by simp [he])
        simpa [hd] using hne
    obtain ⟨d, more, hd, hm, hr⟩ := h item List.mem_cons_self
    have hne : d ≠ ']' := fun he => hm (he ▸ List.mem_cons_self)
    have hi := ih (fun m hm => h m (List.mem_cons_of_mem _ hm)) false (item :: seen) (Or.inl rfl)
    simp only [List.flatMap_cons, hd, List.cons_append, List.append_assoc, members_cons, hne,
      false_and, if_false, hr _ hn, hi]
    simp

/-- A class is read from the texts of its members between brackets. -/
theorem read_written (h : ∀ item ∈ items, ReadsMember (text item) item) (hne : items ≠ [])
    (hl : ∀ c, items ≠ [.literal c]) (rest : List Char) :
    read (items.flatMap text ++ ']' :: rest) = .ok (.charClass items, rest) := by
  have ht : token false items = .charClass items := by
    unfold token
    split
    case isTrue hn => cases hn
    case isFalse =>
      split
      case h_1 c => exact absurd rfl (hl c)
      case h_2 => rfl
  obtain ⟨item, items, rfl⟩ := List.exists_cons_of_ne_nil hne
  obtain ⟨d, more, hd, hm, -⟩ := h item List.mem_cons_self
  have hc : d ≠ '^' := fun he => hm (by simp [he])
  have hs : (item :: items).flatMap text ++ ']' :: rest =
      d :: (more ++ items.flatMap text ++ ']' :: rest) := by
    simp [hd]
  have hr := members_written h ('[' :: d :: (more ++ items.flatMap text ++ ']' :: rest)) rest true []
    (Or.inr hne)
  rw [hs] at hr ⊢
  unfold read
  split
  case h_1 heq => exact absurd (List.cons.inj heq).1 hc
  case h_2 =>
    rw [hr]
    simp [Except.map, ht]

end

theorem readsSingle_shown {c : Char} (h : c ∉ classMarks) :
    ReadsSingle (Piece.literalText c).toList c := by
  rcases literalText_cases c with hc | ⟨letter, hc, hl⟩
  · refine ⟨c, [], hc, fun hm => h (List.mem_cons_of_mem _ hm), fun rest => ?_⟩
    have hb : c ≠ '\\' := fun hb => h (hb ▸ List.mem_cons_self)
    simp [single, hb]
  · refine ⟨'\\', [letter], hc, by decide, fun rest => ?_⟩
    simp [single, (item_of_control? hl rest).2]

theorem readsMember_shown {item : Token} (h : item.IsBareMember) : ReadsMember item.shown item := by
  cases item <;> simp only [Token.IsBareMember] at h
  case literal c =>
    rw [Token.shown_literal]
    exact (readsSingle_shown h).literal
  case category category =>
    rw [Token.shown_category]
    exact readsMember_category category
  case charRange lo hi =>
    obtain ⟨hle, hlo, hhi⟩ := h
    rw [Token.shown_charRange]
    exact (readsSingle_shown hlo).range (readsSingle_shown hhi) hle

/-- A class is read from the text between its brackets. -/
theorem read_shown {items : List Token} (h : ∀ item ∈ items, item.IsBareMember)
    (hl : 2 ≤ items.length ∨ ∃ lo hi, items = [.charRange lo hi]) (rest : List Char) :
    read (Token.listShown items ++ ']' :: rest) = .ok (.charClass items, rest) := by
  rw [Token.listShown_eq_flatMap]
  refine read_written (fun item hi => readsMember_shown (h item hi)) ?_ ?_ rest
  · rintro rfl
    simp at hl
  · rintro c rfl
    simp at hl

end CharClass

namespace Lexeme

/-- A character without a meaning of its own is a literal. -/
theorem solid_literal {c : Char} (h : c ∉ metacharacters) (rest : List Char) :
    solid c rest = .ok (.item (.literal c), rest) := by
  unfold solid
  split <;> first | rfl | exact absurd (by decide) h

/-- The text of a leaf is one lexeme, whatever follows. -/
theorem solid_leaf {token : Token} (h : BareLeaf token) (rest : List Char) :
    ∃ c text, token.shown = c :: text ∧ c ≠ '?' ∧ c ≠ '(' ∧
      solid c (text ++ rest) = .ok (.item token, rest) := by
  cases token <;> simp only [BareLeaf] at h
  case literal c =>
    rcases literalText_cases c with hc | ⟨letter, hc, hl⟩
    · have hne {d : Char} (hd : d ∈ metacharacters) : c ≠ d := fun he => h (he ▸ hd)
      exact ⟨c, [], Token.shown_literal c ▸ hc, hne (by decide), hne (by decide), solid_literal h rest⟩
    · refine ⟨'\\', [letter], Token.shown_literal c ▸ hc, by decide, by decide, ?_⟩
      simp [solid, ofToken, (item_of_control? hl rest).1, Except.map]
  case anchor anchor =>
    cases anchor
    case lineStart => exact ⟨'^', [], Token.shown_anchor _, by decide, by decide, rfl⟩
    case lineEnd => exact ⟨'$', [], Token.shown_anchor _, by decide, by decide, rfl⟩
    all_goals exact ⟨'\\', [_], Token.shown_anchor _, by decide, by decide, rfl⟩
  case category category =>
    cases category <;> exact ⟨'\\', [_], Token.shown_category _, by decide, by decide, rfl⟩
  case wildcard => exact ⟨'.', [], rfl, by decide, by decide, rfl⟩
  case charClass items =>
    have hb : Token.needsBrackets items = true := by
      unfold Token.needsBrackets
      split <;> simp_all
    have he : items.isEmpty = false := by
      rcases h.2 with hl | ⟨lo, hi, rfl⟩
      · cases items <;> simp at hl ⊢
      · rfl
    refine ⟨'[', Token.listShown items ++ [']'], ?_, by decide, by decide, ?_⟩
    · simp [Token.shown, Token.pieces, hb, he, Piece.check, Piece.raw, Token.listShown]
    · simp [solid, ofToken, CharClass.read_shown h.1 h.2, Except.map]

end Lexeme

namespace Count

/-- A word is written in the digits that are read as the word. -/
theorem word?_toDigits (w : UInt32) : word? (Nat.toDigits 10 w.toNat) = some w := by
  have hv : value (Nat.toDigits 10 w.toNat) = w.toNat := Nat.ofDigitChars_ten_toDigits
  simp [word?, hv, UInt32.toNat_lt_size]

theorem isDigit_of_mem_toDigits (n : Nat) : ∀ d ∈ Nat.toDigits 10 n, d.isDigit = true :=
  fun _ hd => Nat.isDigit_of_mem_toDigits (by decide) (by decide) hd

theorem isProper_exact (n : Nat) : IsProper ⟨Nat.toDigits 10 n, none⟩ where
  low := isDigit_of_mem_toDigits n
  high _ h := absurd h.symm (Option.some_ne_none _)
  number _ := Nat.toDigits_ne_nil

theorem isProper_bounded (n : Nat) {digits : List Char} (hd : ∀ d ∈ digits, d.isDigit = true) :
    IsProper ⟨Nat.toDigits 10 n, some digits⟩ where
  low := isDigit_of_mem_toDigits n
  high _ h := Option.some.inj h ▸ hd
  number h := absurd h (Option.some_ne_none _)

theorem bounds?_exact (w : UInt32) : bounds? ⟨Nat.toDigits 10 w.toNat, none⟩ = some (w, some w) := by
  simp [bounds?, word?_toDigits]

theorem bounds?_atLeast (w : UInt32) : bounds? ⟨Nat.toDigits 10 w.toNat, some []⟩ = some (w, none) := by
  simp [bounds?, word?_toDigits]

theorem bounds?_between {v w : UInt32} (h : ¬ w < v) :
    bounds? ⟨Nat.toDigits 10 v.toNat, some (Nat.toDigits 10 w.toNat)⟩ = some (v, some w) := by
  obtain ⟨d, ds, hd⟩ := List.exists_cons_of_ne_nil (Nat.toDigits_ne_nil (n := w.toNat) (b := 10))
  have hw := word?_toDigits w
  rw [hd] at hw ⊢
  simp [bounds?, word?_toDigits, hw, h]

end Count

namespace Lexeme

theorem solid_count {count : Count} {min : UInt32} {max : Option UInt32} (hp : count.IsProper)
    (hb : count.bounds? = some (min, max)) (rest : List Char) :
    solid '{' (count.inner ++ '}' :: rest) = .ok (quantified min max rest) := by
  show brace _ = _
  rw [brace_written hp, hb]

/-- Bounds are read from their text. -/
theorem solid_bounds {min : UInt32} {max : Option UInt32} (h : max.any (· < min) = false)
    (rest : List Char) :
    ∃ c text, (Piece.bounds min max).flatMap Piece.raw = c :: text ∧ c ≠ '(' ∧
      solid c (text ++ rest) = .ok (quantified min max rest) := by
  unfold Piece.bounds
  split
  case h_1 =>
    split
    case isTrue h0 => exact ⟨'*', [], rfl, by decide, h0 ▸ rfl⟩
    case isFalse =>
      split
      case isTrue h1 => exact ⟨'+', [], rfl, by decide, h1 ▸ rfl⟩
      case isFalse =>
        have hp : Count.IsProper ⟨Nat.toDigits 10 min.toNat, some []⟩ :=
          Count.isProper_bounded min.toNat (by simp)
        have hs := solid_count hp (Count.bounds?_atLeast min) rest
        exact ⟨'{', Nat.toDigits 10 min.toNat ++ [',', '}'], by simp [Piece.raw], by decide,
          by simpa [Count.inner] using hs⟩
  case h_2 max =>
    split
    case isTrue h01 =>
      obtain ⟨rfl, rfl⟩ := h01
      exact ⟨'?', [], rfl, by decide, rfl⟩
    case isFalse =>
      split
      case isTrue he =>
        subst he
        have hs := solid_count (Count.isProper_exact min.toNat) (Count.bounds?_exact min) rest
        exact ⟨'{', Nat.toDigits 10 min.toNat ++ ['}'], by simp [Piece.count, Piece.raw], by decide,
          by simpa [Count.inner] using hs⟩
      case isFalse =>
        have hle : ¬ max < min := by simpa using h
        have hp := Count.isProper_bounded min.toNat (Count.isDigit_of_mem_toDigits max.toNat)
        have hs := solid_count hp (Count.bounds?_between hle) rest
        exact ⟨'{', Nat.toDigits 10 min.toNat ++ ',' :: (Nat.toDigits 10 max.toNat ++ ['}']),
          by simp [Piece.raw], by decide, by simpa [Count.inner] using hs⟩

/-- A quantifier is read from its text, if a question mark behind does not change it. -/
theorem solid_quantifier {q : Quantifier} (h : q.isReversed = false) {rest : List Char}
    (hr : q.isLazy = true ∨ rest.head? ≠ some '?') :
    ∃ c text, (Piece.quantifier q).flatMap Piece.raw = c :: text ∧ c ≠ '(' ∧
      solid c (text ++ rest) = .ok (.quantifier q, rest) := by
  rcases q with ⟨min, max, isLazy⟩
  cases isLazy with
  | false =>
    obtain ⟨c, text, hc, hp, hs⟩ := solid_bounds h rest
    refine ⟨c, text, by simpa [Piece.quantifier] using hc, hp, ?_⟩
    have hq : rest.head? ≠ some '?' := by simpa using hr
    rw [hs, quantified_greedy hq]
  | true =>
    obtain ⟨c, text, hc, hp, hs⟩ := solid_bounds h ('?' :: rest)
    refine ⟨c, text ++ ['?'], by simp [Piece.quantifier, hc, Piece.raw], hp, ?_⟩
    rw [List.append_assoc]
    exact hs

end Lexeme

end RegexTypeset
