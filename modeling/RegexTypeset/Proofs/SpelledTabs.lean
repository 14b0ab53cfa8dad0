import RegexTypeset.Proofs.AlikeReadings
import RegexTypeset.Proofs.SpelledLexemes
import RegexTypeset.Proofs.TreeEquality

/-! # Patterns with their tabs spelled

Spelling the tabs of a pattern keeps its tokens and its flags as long as no lexeme loses a
tab. In verbose reading a tab is layout, but its spelling is an item. A tab after a
backslash is an item, but its spelling is two: the backslash escapes the one of the
spelling, and the letter is left.
-/
namespace RegexTypeset

open Sample (spellTabs)

namespace Nesting

def losesTab (n : Nesting) : List Char → Bool
  | [] => false
  | c :: rest =>
    match _h : Lexeme.read n.isVerbose c rest with
    | .error _ => false
    | .ok (lexeme, rest') =>
      lexeme.losesTab (c :: rest) rest' ||
        match n.push (c :: rest) lexeme with
        | .error _ => false
        | .ok n' => n'.losesTab rest'
termination_by text => text.length
decreasing_by
  have shorter := (Lexeme.suffix_of_read _h).length_le
  simp only [List.length_cons]
  omega

variable {n n' m : Nesting} {given given' : Flags} {c : Char} {rest rest' text : List Char}
  {lexeme : Lexeme}

theorem Step.losesTab_eq (h : Step n c rest lexeme n' rest') :
    n.losesTab (c :: rest) = (lexeme.losesTab (c :: rest) rest' || n'.losesTab rest') := by
  rw [losesTab]
  split
  case h_1 fault hf =>
    rw [h.reads] at hf
    cases hf
  case h_2 lexeme' rest'' hl =>
    rw [h.reads] at hl
    cases hl
    simp only [h.effect]

/-- A reading that loses no tab goes on alike in the spelled text. -/
theorem Alike.read_spelled (h : Alike spellTabs given given' n n') (hr : n.read text = .ok m)
    (hl : n.losesTab text = false) :
    ∃ m', n'.read (spellTabs text) = .ok m' ∧ Alike spellTabs given given' m m' := by
  refine Alike.read_of (fun n text => n.losesTab text = false) rfl ?_ h hl hr
  intro n c rest lexeme m rest' hs hl
  rw [hs.losesTab_eq, Bool.or_eq_false_iff] at hl
  obtain ⟨c', more, hc, hr⟩ := Lexeme.read_spelled hs.reads hl.1
  refine ⟨hl.2, c', more, hc, fun he => ?_, hr⟩
  subst he
  exact (Sample.eq_of_spellTabs hc (by decide)).1.symm

/-- In verbose reading a tab means nothing, and its spelling is an item. -/
theorem read_layoutTab (hv : n.isVerbose = true) (rest : List Char) :
    n.read ('\t' :: rest) = n.read rest ∧
      n.read (spellTabs ('\t' :: rest)) = (n.add (.literal '\t')).read (spellTabs rest) := by
  have hb : isBlank '\t' = true := by decide
  have hs (verbose : Bool) (rest : List Char) :
      Lexeme.read verbose '\\' ('t' :: rest) = .ok (.item (.literal '\t'), rest) := by
    cases verbose <;> rfl
  constructor
  · exact read_lexeme .filler (by simp) (by simp [Lexeme.read, hv, hb]) rfl
  · exact read_lexeme (.item (.literal '\t')) (by simp) (hs n.isVerbose _) rfl

/-- A tab that a backslash escapes is an item, and its spelling is a backslash and a letter. -/
theorem read_escapedTab (n : Nesting) (rest : List Char) :
    n.read ('\\' :: '\t' :: rest) = (n.add (.literal '\t')).read rest ∧
      n.read (spellTabs ('\\' :: '\t' :: rest)) =
        ((n.add (.literal '\\')).add (.literal 't')).read (spellTabs rest) := by
  have hs (verbose : Bool) {d : Char} (hd : d = '\t' ∨ d = '\\') (rest : List Char) :
      Lexeme.read verbose '\\' (d :: rest) = .ok (.item (.literal d), rest) := by
    rcases hd with rfl | rfl <;> cases verbose <;> rfl
  have ht (verbose : Bool) (rest : List Char) :
      Lexeme.read verbose 't' rest = .ok (.item (.literal 't'), rest) := by
    cases verbose <;> rfl
  constructor
  · exact read_lexeme (.item (.literal '\t')) (by simp) (hs n.isVerbose (Or.inl rfl) _) rfl
  · have hb := read_lexeme (n := n) (.item (.literal '\\')) (by simp)
      (hs n.isVerbose (Or.inr rfl) ('t' :: spellTabs rest)) rfl
    exact hb.trans (read_lexeme (.item (.literal 't')) (by simp) (ht _ _) rfl)

end Nesting

namespace Pattern

variable {text : List Char} {flags found : Flags} {tokens : List Token}

theorem readOnce_spelled (h : readOnce text flags = .ok (tokens, found))
    (hl : (Nesting.start flags).losesTab text = false) :
    readOnce (spellTabs text) flags = .ok (tokens, found) := by
  obtain ⟨directives, rfl, hr⟩ := readOnce_of_alike h fun m hm =>
    (Nesting.alike_start rfl).read_spelled hm hl
  exact hr

def losesTab (text : List Char) (flags : Flags) : Bool :=
  (Nesting.start flags).losesTab text ||
    match readOnce text flags with
    | .error _ => false
    | .ok (_, found) => rereads flags found && (Nesting.start found).losesTab text

theorem read_spelled (h : read text flags = .ok (tokens, found))
    (hl : losesTab text flags = false) :
    read (spellTabs text) flags = .ok (tokens, found) := by
  simp only [read] at h
  split at h
  case h_1 => cases h
  case h_2 tokens₁ first ho =>
    simp only [losesTab, ho, Bool.or_eq_false_iff] at hl
    have ho' := readOnce_spelled ho hl.1
    simp only [read, ho']
    split at h
    case isTrue hx =>
      rw [hx, Bool.true_and] at hl
      rw [if_pos hx]
      exact readOnce_spelled h hl.2
    case isFalse hx =>
      rw [if_neg hx]
      exact h

/-- Spelling the tabs of a pattern keeps its tokens and flags, if its reading loses none. -/
theorem compile_spellTabs (text : String) (flags : Flags) (pattern : Pattern)
    (h : compile text flags = .ok pattern) (hl : losesTab text.toList flags = false) :
    compile (String.ofList (spellTabs text.toList)) flags =
      .ok ⟨String.ofList (spellTabs text.toList), pattern.flags, pattern.tokens⟩ := by
  simp only [compile] at h
  split at h
  case h_1 => cases h
  case h_2 tokens found hr =>
    cases h
    simp only [compile, String.toList_ofList, read_spelled hr hl]

section

open scoped TreeEquality

/-- Tabs that stand for themselves alone, in a range and in front of a quantifier, and one in a
comment. -/
theorem compile_spellTabs_range :
    losesTab "\t[\t-a](?#\t)\\\\\t+".toList ∅ = false ∧
      compile (String.ofList (spellTabs "\t[\t-a](?#\t)\\\\\t+".toList)) ∅ =
        .ok ⟨String.ofList (spellTabs "\t[\t-a](?#\t)\\\\\t+".toList), ∅,
          [.literal '\t', .charClass [.charRange '\t' 'a'], .literal '\\',
            .repeated ⟨1, none, false⟩ (.literal '\t')]⟩ := by
  have hr : read "\t[\t-a](?#\t)\\\\\t+".toList ∅ =
      .ok ([.literal '\t', .charClass [.charRange '\t' 'a'], .literal '\\',
        .repeated ⟨1, none, false⟩ (.literal '\t')], ∅) := by decide +kernel
  have hl : losesTab "\t[\t-a](?#\t)\\\\\t+".toList ∅ = false := by decide +kernel
  have hc : compile "\t[\t-a](?#\t)\\\\\t+" ∅ = .ok ⟨"\t[\t-a](?#\t)\\\\\t+", ∅,
      [.literal '\t', .charClass [.charRange '\t' 'a'], .literal '\\',
        .repeated ⟨1, none, false⟩ (.literal '\t')]⟩ := by
    simp only [compile, hr]
  exact ⟨hl, compile_spellTabs _ ∅ _ hc hl⟩

end

end Pattern

end RegexTypeset
