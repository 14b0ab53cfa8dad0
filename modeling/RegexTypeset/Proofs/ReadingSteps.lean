import RegexTypeset.Pattern
import RegexTypeset.Proofs.Surround

/-! # Steps of a reading

A reading that succeeds takes one lexeme after the other. What each lexeme keeps, the
whole reading keeps. Items that are read in a row, and those put in front of a pattern,
are operations on the open groups.
-/
namespace RegexTypeset

namespace Nesting

/-- One lexeme is read and has its effect. An opening parenthesis must not be too deep. -/
structure Step (n : Nesting) (c : Char) (rest : List Char) (lexeme : Lexeme) (n' : Nesting)
    (rest' : List Char) : Prop where
  shallow : c = '(' → n.depth < maxDepth
  reads : Lexeme.read n.isVerbose c rest = .ok (lexeme, rest')
  effect : n.push (c :: rest) lexeme = .ok n'

variable {n n' m : Nesting} {c : Char} {rest rest' text : List Char} {lexeme : Lexeme}

theorem Step.read_eq (h : Step n c rest lexeme n' rest') : n.read (c :: rest) = n'.read rest' := by
  have hd : ¬ (c = '(' ∧ maxDepth ≤ n.depth) := by
    rintro ⟨hc, hd⟩
    have := h.shallow hc
    omega
  rw [read_cons, if_neg hd, h.reads]
  simp only [h.effect]

/-- The effect of a given lexeme. -/
theorem read_lexeme (lexeme : Lexeme) (hd : c = '(' → n.depth < maxDepth)
    (hl : Lexeme.read n.isVerbose c rest = .ok (lexeme, rest'))
    (hp : n.push (c :: rest) lexeme = .ok n') : n.read (c :: rest) = n'.read rest' :=
  Step.read_eq ⟨hd, hl, hp⟩

theorem read_bar (n : Nesting) (rest : List Char) :
    n.read ('|' :: rest) = ({ n with current := n.current.split } : Nesting).read rest := by
  have hl : Lexeme.read n.isVerbose '|' rest = .ok (.bar, rest) := by
    cases n.isVerbose <;> rfl
  exact read_lexeme .bar (fun he => absurd he (by decide)) hl rfl

theorem read_opening {kind : GroupKind} (hd : n.depth < maxDepth)
    (hh : GroupHeader.read rest = .ok (.opening kind, rest')) :
    n.read ('(' :: rest) = (n.openGroup ('(' :: rest) kind).read rest' := by
  have hl : Lexeme.read n.isVerbose '(' rest = GroupHeader.read rest := by
    cases n.isVerbose <;> rfl
  exact read_lexeme (.opening kind) (fun _ => hd) (hl.trans hh) rfl

theorem read_closing {group : OpenGroup} {groups : List OpenGroup} (hg : n.groups = group :: groups)
    (rest : List Char) :
    n.read (')' :: rest) = ({ n with
      scope := group.kind.after group.outer n.scope
      current := group.around.add (group.kind.token n.current.tokens)
      groups := groups } : Nesting).read rest := by
  have hl : Lexeme.read n.isVerbose ')' rest = .ok (.closing, rest) := by
    cases n.isVerbose <;> rfl
  refine read_lexeme .closing (fun he => absurd he (by decide)) hl ?_
  simp only [push, closeGroup?, hg]

theorem Step.length_lt (h : Step n c rest lexeme n' rest') : rest'.length < (c :: rest).length := by
  have := (Lexeme.suffix_of_read h.reads).length_le
  simp only [List.length_cons]
  omega

/-- A closing parenthesis needs an open group. -/
theorem exists_group_of_push {place : List Char} (h : n.push place .closing = .ok n') :
    ∃ group groups, n.groups = group :: groups ∧
      n' = { n with
        scope := group.kind.after group.outer n.scope
        current := group.around.add (group.kind.token n.current.tokens)
        groups := groups } := by
  rcases n with ⟨scope, global, current, _ | ⟨group, groups⟩⟩
  · cases h
  · cases h
    exact ⟨group, groups, rfl, rfl⟩

/-- A quantifier changes the current items only. -/
theorem exists_quantify_of_push {place : List Char} {q : Quantifier}
    (h : n.push place (.quantifier q) = .ok n') :
    ∃ current, n.current.quantify q = .ok current ∧ n' = { n with current := current } := by
  simp only [push] at h
  split at h
  case h_1 current hq => cases h; exact ⟨current, hq, rfl⟩
  case h_2 => cases h

/-- A reading of a text that is not empty starts with a step. -/
theorem exists_step (h : n.read (c :: rest) = .ok m) :
    ∃ lexeme n' rest', Step n c rest lexeme n' rest' ∧ n'.read rest' = .ok m := by
  rw [read_cons] at h
  split at h
  case isTrue => cases h
  case isFalse hd =>
    split at h
    case h_1 => cases h
    case h_2 lexeme rest' hl =>
      split at h
      case h_1 => cases h
      case h_2 n' hp =>
        have hs (hc : c = '(') : n.depth < maxDepth := Nat.lt_of_not_le fun hn => hd ⟨hc, hn⟩
        exact ⟨lexeme, n', rest', ⟨hs, hl, hp⟩, h⟩

/-- The first lexeme of a text that is read has its effect. -/
theorem exists_push (h : Lexeme.read n.isVerbose c rest = .ok (lexeme, rest'))
    (hm : n.read (c :: rest) = .ok m) :
    ∃ n', n.push (c :: rest) lexeme = .ok n' ∧ n'.read rest' = .ok m := by
  obtain ⟨lexeme', n', rest'', hs, hr⟩ := exists_step hm
  have he := Except.ok.inj (hs.reads.symm.trans h)
  obtain rfl : lexeme' = lexeme := congrArg Prod.fst he
  obtain rfl : rest'' = rest' := congrArg Prod.snd he
  exact ⟨n', hs.effect, hr⟩

/-- What every step keeps, a reading keeps. -/
theorem read_keeps {p : Nesting → Prop}
    (step : ∀ {n c rest lexeme n' rest'}, Step n c rest lexeme n' rest' → p n → p n')
    (h : n.read text = .ok m) (hn : p n) : p m := by
  induction hl : text.length using Nat.strongRecOn generalizing n text with
  | ind l ih =>
    cases text with
    | nil =>
      rw [read_nil] at h
      cases h
      exact hn
    | cons c rest =>
      obtain ⟨lexeme, n', rest', hs, hr⟩ := exists_step h
      exact ih _ (hl ▸ hs.length_lt) hr (step hs hn) rfl

def addAll (n : Nesting) (tokens : List Token) : Nesting :=
  { n with current := n.current.addAll tokens }

def addContent (n : Nesting) (items : List Token) : Nesting :=
  { n with current := n.current.addContent items }

@[simp] theorem addAll_nil (n : Nesting) : n.addAll [] = n := rfl

@[simp] theorem isVerbose_addAll (n : Nesting) (tokens : List Token) :
    (n.addAll tokens).isVerbose = n.isVerbose := rfl

theorem addAll_addAll (n : Nesting) (s t : List Token) :
    (n.addAll s).addAll t = n.addAll (s ++ t) := by
  simp [addAll, Alternatives.addAll]

end Nesting

namespace Pattern

variable {text : List Char} {flags found : Flags} {tokens : List Token}

theorem readOnce_eq_ok : readOnce text flags = .ok (tokens, found) ↔
    ∃ m, (Nesting.start flags).read text = .ok m ∧ m.groups = [] ∧ m.current.tokens = tokens ∧
      m.global = found := by
  constructor
  · intro h
    simp only [readOnce] at h
    split at h
    case h_1 => cases h
    case h_2 m hr =>
      rcases m with ⟨scope, global, current, _ | ⟨group, groups⟩⟩
      · cases h
        exact ⟨_, hr, rfl, rfl, rfl⟩
      · cases h
  · rintro ⟨m, hr, hg, rfl, rfl⟩
    rcases m with ⟨scope, global, current, groups⟩
    obtain rfl : groups = [] := hg
    simp [readOnce, hr, Nesting.finish]

theorem exists_readOnce_of_read (h : read text flags = .ok (tokens, found)) :
    ∃ tokens₁ found₁, readOnce text flags = .ok (tokens₁, found₁) := by
  simp only [read] at h
  split at h
  case h_1 => cases h
  case h_2 ho => exact ⟨_, _, ho⟩

theorem compile_eq_ok {text : String} {flags : Flags} :
    (∃ pattern, compile text flags = .ok pattern) ↔
      ∃ tokens found, read text.toList flags = .ok (tokens, found) := by
  simp only [compile]
  split
  case h_1 hr => simp [hr]
  case h_2 hr => simp [hr]

end Pattern

end RegexTypeset
