import RegexTypeset.Proofs.ProperLexemes
import RegexTypeset.Proofs.SurroundedReading

/-! # Quantifiers that find nothing

A pattern that is read behind some items may fail without them: when a quantifier comes
before any item of its own, only filler and flag directives stand in front of it. This
is the one way in which the items in front are needed.
-/
namespace RegexTypeset

namespace Lexeme

variable {c : Char} {rest after : List Char} {lexeme : Lexeme} {verbose : Bool}

/-- Parentheses and the signs of quantifiers mean the same in a verbose reading. -/
theorem read_sign (h : c ∈ ['(', '*', '+', '?', '{']) (verbose : Bool) (rest : List Char) :
    read verbose c rest = solid c rest := by
  have hs : isBlank c = false ∧ (c == '#') = false := by
    simp only [List.mem_cons, List.not_mem_nil, or_false] at h
    rcases h with rfl | rfl | rfl | rfl | rfl <;> decide
  simp [read, hs.1, hs.2]

/-- Filler, directives and quantifiers of other readings mean the same in a verbose one. -/
theorem read_verbose (h : read false c rest = .ok (lexeme, after))
    (hl : lexeme = .filler ∨ (∃ added, lexeme = .flags added) ∨ ∃ q, lexeme = .quantifier q) :
    read true c rest = .ok (lexeme, after) := by
  have hs : solid c rest = .ok (lexeme, after) := h
  have hc : c ∈ ['(', '*', '+', '?', '{'] := by
    rcases cases_of_solid hs with rfl | ⟨hc, -⟩ | ⟨token, rfl⟩ | rfl | ⟨-, rfl⟩
    · exact List.mem_cons_self
    · exact List.mem_cons_of_mem _ hc
    all_goals simp at hl
  rw [read_sign hc]
  exact hs

end Lexeme

/-- Only filler and flag directives stand before the first quantifier of the text. -/
inductive Blocked : Bool → List Char → Prop
  | quantifier {verbose : Bool} {c : Char} {rest rest' : List Char} {q : Quantifier}
      (h : Lexeme.read verbose c rest = .ok (.quantifier q, rest')) : Blocked verbose (c :: rest)
  | filler {verbose : Bool} {c : Char} {rest rest' : List Char}
      (h : Lexeme.read verbose c rest = .ok (.filler, rest')) (hr : Blocked verbose rest') :
      Blocked verbose (c :: rest)
  | flags {verbose : Bool} {c : Char} {rest rest' : List Char} {added : Flags}
      (h : Lexeme.read verbose c rest = .ok (.flags added, rest'))
      (hr : Blocked (verbose || added.has .verbose) rest') : Blocked verbose (c :: rest)

/-- A blocked text is so in a verbose reading as well. -/
theorem Blocked.verbose {verbose : Bool} {text : List Char} (h : Blocked verbose text) :
    Blocked true text := by
  induction h with
  | @quantifier verbose c rest rest' q h =>
    cases verbose with
    | true => exact .quantifier h
    | false => exact .quantifier (Lexeme.read_verbose h (Or.inr (Or.inr ⟨q, rfl⟩)))
  | @filler verbose c rest rest' h _ ih =>
    cases verbose with
    | true => exact .filler h ih
    | false => exact .filler (Lexeme.read_verbose h (Or.inl rfl)) ih
  | @flags verbose c rest rest' added h _ ih =>
    cases verbose with
    | true => exact .flags h ih
    | false => exact .flags (Lexeme.read_verbose h (Or.inr (Or.inl ⟨added, rfl⟩))) ih

/-- A quantifier leaves an item. -/
theorem Alternatives.items_of_quantify {a b : Alternatives} {q : Quantifier}
    (h : a.quantify q = .ok b) : ∃ body items, b.items = .repeated q body :: items := by
  simp only [quantify] at h
  split at h <;> cases h
  exact ⟨_, _, rfl⟩

namespace Nesting

variable {n n' m w : Nesting} {c : Char} {rest rest' text place : List Char} {lexeme : Lexeme}
  {before : List Token} {behind spaces : List Char} {flags : Flags}

structure IsBare (n : Nesting) : Prop where
  groups : n.groups = []
  current : n.current = .empty

theorem isBare_start (flags : Flags) : (start flags).IsBare := ⟨rfl, rfl⟩

theorem IsBare.shallow (h : n.IsBare) : ¬ (c = '(' ∧ maxDepth ≤ n.depth) := by
  rintro ⟨-, hd⟩
  rw [depth, h.groups] at hd
  exact absurd hd (by decide)

theorem isVerbose_addFlags (n : Nesting) (added : Flags) :
    (n.addFlags added).isVerbose = (n.isVerbose || added.has .verbose) :=
  Flags.has_verbose_union n.scope added

theorem push_quantifier_of_isBare (h : n.IsBare) (place : List Char) (q : Quantifier) :
    n.push place (.quantifier q) = .error ⟨.nothingToRepeat, place⟩ := by
  have hq : n.current.quantify q = .error .nothingToRepeat := by
    rw [h.current]
    rfl
  simp only [push, hq]

/-- From the start on, a blocked text has nothing to repeat. -/
theorem read_of_blocked {verbose : Bool} (h : Blocked verbose text) (hn : n.IsBare)
    (hv : n.isVerbose = verbose) : ∃ place, n.read text = .error ⟨.nothingToRepeat, place⟩ := by
  induction h generalizing n with
  | @quantifier verbose c rest rest' q h =>
    refine ⟨c :: rest, ?_⟩
    rw [read_cons, if_neg hn.shallow, hv, h]
    simp only [push_quantifier_of_isBare hn]
  | @filler verbose c rest rest' h _ ih =>
    rw [read_cons, if_neg hn.shallow, hv, h]
    exact ih hn hv
  | @flags verbose c rest rest' added h _ ih =>
    rw [read_cons, if_neg hn.shallow, hv, h]
    have hb : (n.addFlags added).IsBare := ⟨hn.groups, hn.current⟩
    exact ih hb (by rw [isVerbose_addFlags, hv])

/-- A nesting is bare after filler and directives only, and was so before. -/
theorem IsBare.of_push (h : n.push place lexeme = .ok n') (hn : n'.IsBare) :
    n.IsBare ∧ (lexeme = .filler ∧ n' = n ∨ ∃ added, lexeme = .flags added ∧ n' = n.addFlags added) := by
  rcases hn with ⟨hg, hc⟩
  cases lexeme with
  | filler => cases h; exact ⟨⟨hg, hc⟩, Or.inl ⟨rfl, rfl⟩⟩
  | flags added => cases h; exact ⟨⟨hg, hc⟩, Or.inr ⟨added, rfl, rfl⟩⟩
  | item token =>
    cases h
    exact absurd (congrArg Alternatives.items hc) (List.cons_ne_nil _ _)
  | bar =>
    cases h
    exact absurd (congrArg Alternatives.branches hc) (List.cons_ne_nil _ _)
  | opening kind => cases h; cases hg
  | closing =>
    obtain ⟨group, groups, -, rfl⟩ := exists_group_of_push h
    exact absurd (congrArg Alternatives.items hc) (List.cons_ne_nil _ _)
  | quantifier q =>
    obtain ⟨current, hq, rfl⟩ := exists_quantify_of_push h
    obtain ⟨body, items, hb⟩ := Alternatives.items_of_quantify hq
    rw [show current = .empty from hc] at hb
    cases hb

/-- What a lexeme does inside a longer text it does alone, but for a quantifier that needs the
items in front. -/
theorem push_of_within (h : (n.within before behind).push (place ++ behind) lexeme = .ok w) :
    (∃ n', n.push place lexeme = .ok n' ∧ w = n'.within before behind) ∨
      before ≠ [] ∧ n.IsBare ∧ ∃ q, lexeme = .quantifier q := by
  cases hp : n.push place lexeme with
  | ok n' =>
    rw [push_within hp] at h
    cases h
    exact Or.inl ⟨n', rfl, rfl⟩
  | error fault =>
    right
    cases lexeme with
    | filler => cases hp
    | flags added => cases hp
    | item token => cases hp
    | bar => cases hp
    | opening kind => cases hp
    | closing =>
      obtain ⟨group, groups, hg, -⟩ := exists_group_of_push h
      rcases n with ⟨scope, global, current, _ | ⟨first, others⟩⟩
      · cases hg
      · cases hp
    | quantifier q =>
      obtain ⟨current, hq, -⟩ := exists_quantify_of_push h
      have hn (b : Alternatives) : n.current.quantify q ≠ .ok b := by
        intro hb
        simp only [push, hb] at hp
        cases hp
      rcases n with ⟨scope, global, inner, _ | ⟨first, others⟩⟩
      · rcases Alternatives.quantify_of_precede hq with ⟨b, hb⟩ | ⟨hb, he⟩
        · exact absurd hb (hn b)
        · exact ⟨hb, ⟨rfl, he⟩, q, rfl⟩
      · exact absurd hq (hn current)

/-- A pattern that is read between items and spaces is read alone, or it is blocked. -/
theorem read_of_within (hs : ∀ d ∈ spaces, d = ' ') (hd : Detached text spaces)
    (h : (n.within before spaces).read (text ++ spaces) = .ok w) :
    (∃ m, n.read text = .ok m) ∨ before ≠ [] ∧ n.IsBare ∧ Blocked n.isVerbose text := by
  induction hl : text.length using Nat.strongRecOn generalizing n text with
  | ind l ih =>
    cases text with
    | nil => exact Or.inl ⟨n, read_nil n⟩
    | cons c rest =>
      obtain ⟨lexeme, w', rest'', hstep, hr⟩ := exists_step h
      have hread := hstep.reads
      rw [isVerbose_within] at hread
      obtain ⟨rest', hl', hd', he⟩ := Lexeme.read_of_append hread hs hd
      have heffect : (n.within before spaces).push ((c :: rest) ++ spaces) lexeme = .ok w' :=
        hstep.effect
      rcases push_of_within heffect with ⟨n', hp, rfl⟩ | ⟨hb, hbare, q, rfl⟩
      · have hstep' : Step n c rest lexeme n' rest' :=
          ⟨fun hc => depth_within (n := n) ▸ hstep.shallow hc, hl', hp⟩
        rw [hstep'.read_eq]
        rcases he with rfl | ⟨-, rfl, -⟩
        · rcases ih _ (hl ▸ hstep'.length_lt) hd' hr rfl with hm | ⟨hb, hbare, hblocked⟩
          · exact Or.inl hm
          · obtain ⟨hn, hc⟩ := hbare.of_push hp
            refine Or.inr ⟨hb, hn, ?_⟩
            rcases hc with ⟨rfl, rfl⟩ | ⟨added, rfl, rfl⟩
            · exact .filler hl' hblocked
            · exact .flags hl' (isVerbose_addFlags n added ▸ hblocked)
        · exact Or.inl ⟨n', read_nil n'⟩
      · exact Or.inr ⟨hb, hbare, .quantifier hl'⟩

end Nesting

end RegexTypeset
