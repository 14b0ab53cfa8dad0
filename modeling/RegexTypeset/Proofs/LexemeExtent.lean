import Mathlib.Data.List.TakeWhile
import RegexTypeset.EdgeSpaces
import RegexTypeset.Proofs.ReaderExtent

/-! # How far a lexeme reaches

A lexeme depends on the text that it takes and on little more: whether a digit or a
question mark follows, and for a brace whether it starts a count. Apart from a lone
character and an escaped one, its text does not end in a space or a backslash. So spaces
behind a text change no lexeme in it, unless the text ends in a lone backslash.
-/
namespace RegexTypeset

structure Continues (after after' : List Char) : Prop where
  start : StandsIn after after'
  count : Count.scan? ('{' :: after) = none → Count.scan? ('{' :: after') = none

inductive Ends : Char → List Char → Prop
  | single {c : Char} (h : c ≠ '\\') : Ends c []
  | escaped (d : Char) : Ends '\\' [d]
  | mark {c d : Char} {front : List Char} (h : IsMark d) : Ends c (front ++ [d])

theorem Ends.of_all {c : Char} {taken : List Char} (hc : c ≠ '\\') (h : ∀ d ∈ taken, IsMark d) :
    Ends c taken := by
  rcases List.eq_nil_or_concat taken with rfl | ⟨front, d, rfl⟩
  · exact .single hc
  · rw [List.concat_eq_append]
    exact .mark (h d (by simp))

theorem Ends.of_escape (c : Char) {taken : List Char} (h : ∀ d ∈ taken, IsMark d) :
    Ends '\\' (c :: taken) := by
  rcases List.eq_nil_or_concat taken with rfl | ⟨front, d, rfl⟩
  · exact .escaped c
  · rw [List.concat_eq_append, ← List.cons_append]
    exact .mark (h d (by simp))

namespace Lexeme

/-- A lexeme from a given first character takes a text, whatever follows in the same way. -/
def Takes (read : List Char → Except Fault (Lexeme × List Char)) (c : Char) (rest : List Char)
    (lexeme : Lexeme) (after : List Char) : Prop :=
  ∃ taken, rest = taken ++ after ∧ Ends c taken ∧
    ∀ after', Continues after after' → read (taken ++ after') = .ok (lexeme, after')

variable {c : Char} {rest after : List Char} {lexeme : Lexeme}

theorem takes_lone {read : List Char → Except Fault (Lexeme × List Char)} (hc : c ≠ '\\')
    (hr : ∀ after', Continues rest after' → read after' = .ok (lexeme, after')) :
    Takes read c rest lexeme rest :=
  ⟨[], rfl, .single hc, hr⟩

theorem takes_readsUpTo {read : List Char → Except Fault (Lexeme × List Char)} {stop : Char}
    (hs : IsMark stop) (h : ReadsUpTo (fun _ => read) rest stop lexeme after) :
    Takes read c rest lexeme after := by
  obtain ⟨run, rfl, hr⟩ := h
  refine ⟨run ++ [stop], by simp, .mark hs, fun after' _ => ?_⟩
  simpa using hr [] after'

theorem quantified_greedy {text : List Char} (h : text.head? ≠ some '?') (min : UInt32)
    (max : Option UInt32) : quantified min max text = (.quantifier ⟨min, max, false⟩, text) := by
  unfold quantified
  split
  case h_1 => exact absurd rfl h
  case h_2 => rfl

theorem readsTo_quantified {min : UInt32} {max : Option UInt32} {text : List Char}
    (h : quantified min max text = (lexeme, after)) :
    ∃ taken, (∀ d ∈ taken, IsMark d) ∧
      ReadsTo (fun _ text => .ok (quantified min max text)) text taken lexeme after := by
  by_cases hq : text.head? = some '?'
  · obtain ⟨rest, rfl⟩ := List.head?_eq_some_iff.mp hq
    cases h
    exact ⟨['?'], by simp [IsMark], rfl, fun place after' _ => rfl⟩
  · rw [quantified_greedy hq] at h
    cases h
    refine ⟨[], by simp, rfl, fun place after' hs => ?_⟩
    have hq' : after'.head? ≠ some '?' := by
      intro he
      rcases hs with hs | hs
      · exact hq (hs ▸ he)
      · exact (hs '?' he).2 (by decide)
    exact congrArg Except.ok (quantified_greedy hq' min max)

theorem takes_quantified {min : UInt32} {max : Option UInt32} (hc : c ≠ '\\')
    (h : quantified min max rest = (lexeme, after)) :
    Takes (fun text => .ok (quantified min max text)) c rest lexeme after := by
  obtain ⟨taken, hm, rfl, hr⟩ := readsTo_quantified h
  exact ⟨taken, rfl, .of_all hc hm, fun after' hs => hr [] after' hs.start⟩

theorem takes_brace (h : brace rest = .ok (lexeme, after)) : Takes brace '{' rest lexeme after := by
  rcases cases_of_brace h with ⟨hn, rfl, rfl⟩ | ⟨count, min, max, rest', hp, rfl, hb, hq⟩
  · exact takes_lone (by decide) fun after' hs => by simp [brace, hs.count hn]
  · obtain ⟨taken, hm, rfl, ht⟩ := readsTo_quantified hq
    refine ⟨count.inner ++ '}' :: taken, by simp, .of_all (by decide) ?_, fun after' hi => ?_⟩
    · intro d hd
      rcases List.mem_append.mp hd with hd | hd
      · exact Count.isMark_of_count (hp.inner d hd)
      · rcases List.mem_cons.mp hd with rfl | hd
        · decide
        · exact hm d hd
    · rw [List.append_assoc, List.cons_append, brace_written hp, hb]
      exact ht [] after' hi.start

theorem takes_ofToken (read : List Char → Except Fault (Token × List Char))
    (hr : ∀ {token}, read rest = .ok (token, after) → ∃ taken, rest = taken ++ after ∧
      Ends c taken ∧ ∀ after', Continues after after' → read (taken ++ after') = .ok (token, after'))
    (h : ofToken (read rest) = .ok (lexeme, after)) :
    Takes (fun text => ofToken (read text)) c rest lexeme after := by
  obtain ⟨token, ht, rfl⟩ := eq_of_ofToken h
  obtain ⟨taken, he, hn, ha⟩ := hr ht
  exact ⟨taken, he, hn, fun after' hs => by simp [ha after' hs, ofToken, Except.map]⟩

theorem takes_solid (h : solid c rest = .ok (lexeme, after)) :
    Takes (solid c) c rest lexeme after := by
  simp only [solid] at h
  split at h
  case h_1 => cases h; exact takes_lone (by decide) fun after' _ => rfl
  case h_2 => cases h; exact takes_lone (by decide) fun after' _ => rfl
  case h_3 => exact takes_quantified (by decide) (Except.ok.inj h)
  case h_4 => exact takes_quantified (by decide) (Except.ok.inj h)
  case h_5 => exact takes_quantified (by decide) (Except.ok.inj h)
  case h_6 => exact takes_brace h
  case h_7 =>
    rcases GroupHeader.readsUpTo_read h with ⟨stop, hs, hr⟩ | ⟨hq, rfl, rfl⟩
    · exact takes_readsUpTo hs hr
    · refine takes_lone (by decide) fun after' hi => GroupHeader.read_plain fun he => ?_
      rcases hi.start with hs | hs
      · exact hq (hs ▸ he)
      · exact (hs '?' he).2 (by decide)
  case h_8 =>
    refine takes_ofToken CharClass.read (fun {token} ht => ?_) h
    obtain ⟨run, rfl, hr⟩ := CharClass.readsUpTo_read ht
    exact ⟨run ++ [']'], by simp, .mark (by decide), fun after' _ => by
      simpa using hr [] after'⟩
  case h_9 =>
    refine takes_ofToken Escape.item (fun {token} ht => ?_) h
    obtain ⟨d, taken, hm, rfl, hr⟩ := Escape.readsTo_item ht
    exact ⟨d :: taken, rfl, .of_escape d hm, fun after' hs => hr [] after' hs.start⟩
  case h_10 => cases h; exact takes_lone (by decide) fun after' _ => rfl
  case h_11 => cases h; exact takes_lone (by decide) fun after' _ => rfl
  case h_12 => cases h; exact takes_lone (by decide) fun after' _ => rfl
  case h_13 _ _ _ _ _ _ _ _ hc _ _ _ =>
    cases h
    exact takes_lone hc fun after' _ => by simp [solid]

structure IsOpenComment (verbose : Bool) (c : Char) (rest : List Char) : Prop where
  verbose : verbose = true
  sign : c = '#'
  noLineEnd : '\n' ∉ rest

theorem nextLine_of_not_mem (h : '\n' ∉ rest) (more : List Char) :
    nextLine (rest ++ more) = nextLine more := by
  rw [nextLine, nextLine, List.dropWhile_append_of_pos (not_mem_iff_run.mp h)]

theorem nextLine_eq_nil (h : '\n' ∉ rest) : nextLine rest = [] := by
  have hn := nextLine_of_not_mem h []
  rwa [List.append_nil] at hn

theorem read_openComment {verbose : Bool} (h : IsOpenComment verbose c rest) (more : List Char) :
    read verbose c (rest ++ more) = .ok (.filler, nextLine more) := by
  rcases h with ⟨rfl, rfl, hn⟩
  have hb : isBlank '#' = false := by decide
  simp [read, hb, nextLine_of_not_mem hn]

theorem takes_read {verbose : Bool} (h : read verbose c rest = .ok (lexeme, after)) :
    Takes (read verbose c) c rest lexeme after ∨ IsOpenComment verbose c rest := by
  simp only [read] at h
  split at h
  case isTrue hb =>
    cases h
    have hc : c ≠ '\\' := by
      rintro rfl
      simp only [Bool.and_eq_true] at hb
      exact absurd hb.2 (by decide)
    exact Or.inl (takes_lone hc fun after' _ => by simp [read, hb])
  case isFalse hb =>
    split at h
    case isTrue hs =>
      cases h
      obtain ⟨rfl, rfl⟩ : verbose = true ∧ c = '#' := by simpa using hs
      by_cases hn : '\n' ∈ rest
      · left
        cases hd : rest.dropWhile (· ≠ '\n') with
        | nil => exact absurd (List.dropWhile_eq_nil_iff.mp hd _ hn) (by decide)
        | cons stop after =>
          obtain ⟨run, rfl, -, hr, hs'⟩ := span_split hd
          obtain rfl : stop = '\n' := by simpa using hs'
          have ha (after' : List Char) : nextLine (run ++ '\n' :: after') = after' := by
            rw [nextLine, (span_append hr hs' after').2]
            rfl
          rw [ha]
          refine ⟨run ++ ['\n'], by simp, .mark (by decide), fun after' _ => ?_⟩
          have hl := ha after'
          simp only [read, if_neg hb, if_pos hs, List.append_assoc, List.singleton_append, hl]
      · exact Or.inr ⟨rfl, rfl, hn⟩
    case isFalse hs =>
      obtain ⟨taken, rfl, he, hr⟩ := takes_solid h
      exact Or.inl ⟨taken, rfl, he, fun after' hi => by simp only [read, if_neg hb, if_neg hs, hr after' hi]⟩

end Lexeme

theorem inert_spaces (k : Nat) : ∀ d ∈ (List.replicate k ' ').head?, Inert d := by
  intro d hd
  obtain rfl : d = ' ' := List.eq_of_mem_replicate (List.mem_of_mem_head? hd)
  exact ⟨by decide, by decide⟩

theorem Count.scan?_append_inert {text more : List Char} (hm : ∀ d ∈ more.head?, Inert d)
    (h : scan? ('{' :: text) = none) : scan? ('{' :: (text ++ more)) = none := by
  cases hs : scan? ('{' :: (text ++ more)) with
  | none => rfl
  | some result =>
    obtain ⟨run, after, he, hd, hr⟩ := scan?_append hs
    exfalso
    rcases List.append_eq_append_iff.mp he with ⟨front, rfl, hf⟩ | ⟨front, rfl, hf⟩
    · -- the count would go on into what follows
      cases front with
      | nil => exact (hm '}' (by simp [hf])).2 (by decide)
      | cons d front =>
        have hi := hm d (by simp [hf])
        rcases hd d (by simp) with hd | rfl
        · exact absurd (hi.1.symm.trans hd) (by decide)
        · exact hi.2 (by decide)
    · cases front with
      | nil =>
        obtain rfl : '}' :: after = more := hf
        exact (hm '}' rfl).2 (by decide)
      | cons d front =>
        obtain ⟨rfl, -⟩ := List.cons.inj hf
        rw [hr front] at h
        cases h

theorem continues_append {more : List Char} (hm : ∀ d ∈ more.head?, Inert d) (after : List Char) :
    Continues after (after ++ more) := by
  refine ⟨?_, Count.scan?_append_inert hm⟩
  cases after with
  | nil => exact Or.inr hm
  | cons d after => exact Or.inl rfl

theorem continues_of_append (after more : List Char) : Continues (after ++ more) after := by
  constructor
  · cases after with
    | nil => exact Or.inr (by simp)
    | cons d after => exact Or.inl rfl
  · intro h
    cases hs : Count.scan? ('{' :: after) with
    | none => rfl
    | some result =>
      obtain ⟨run, tail, rfl, -, hr⟩ := Count.scan?_append hs
      have ha := hr (tail ++ more)
      rw [List.append_assoc, List.cons_append, ha] at h
      cases h

/-- Spaces behind a text belong to no escape sequence that it starts. -/
def Detached (text spaces : List Char) : Prop :=
  spaces = [] ∨ EdgeSpaces.endsInEscape text.reverse = false

theorem EdgeSpaces.endsInEscape_append {front : List Char} (h : endsInEscape front = false)
    (reversed : List Char) : endsInEscape (reversed ++ front) = endsInEscape reversed := by
  unfold endsInEscape at h ⊢
  rw [List.takeWhile_append]
  split
  case isTrue he =>
    rw [List.length_append, he]
    simp only [decide_eq_false_iff_not] at h
    simp only [decide_eq_decide]
    omega
  case isFalse => rfl

theorem Ends.endsInEscape {c : Char} {taken : List Char} (h : Ends c taken) :
    EdgeSpaces.endsInEscape (c :: taken).reverse = false := by
  cases h with
  | single h => simp [EdgeSpaces.endsInEscape, h]
  | escaped d => by_cases hd : d = '\\' <;> simp [EdgeSpaces.endsInEscape, hd]
  | @mark _ d _ h =>
    have hd : d ≠ '\\' := by
      rintro rfl
      exact h (by decide)
    simp [EdgeSpaces.endsInEscape, hd]

theorem Ends.detached {c : Char} {taken after spaces : List Char} (h : Ends c taken)
    (hd : Detached (c :: (taken ++ after)) spaces) : Detached after spaces := by
  refine hd.imp_right fun hd => ?_
  rw [← List.cons_append, List.reverse_append, EdgeSpaces.endsInEscape_append h.endsInEscape] at hd
  exact hd

/-- The text of a lexeme does not reach into spaces that are detached. -/
theorem Ends.split {c : Char} {taken rest after spaces : List Char} (h : Ends c taken)
    (hs : ∀ d ∈ spaces, d = ' ') (hd : Detached (c :: rest) spaces)
    (he : rest ++ spaces = taken ++ after) :
    ∃ after', rest = taken ++ after' ∧ after = after' ++ spaces := by
  rcases List.append_eq_append_iff.mp he with ⟨past, ht, hf⟩ | ⟨after', rfl, rfl⟩
  · rcases List.eq_nil_or_concat past with rfl | ⟨front, e, rfl⟩
    · exact ⟨[], by simpa using ht.symm, by simpa using hf.symm⟩
    · have hes : e ∈ spaces := by simp [hf]
      exfalso
      cases h with
      | single => simp at ht
      | escaped d =>
        obtain ⟨rfl, rfl⟩ : rest = [] ∧ front = [] := by
          have hl := congrArg List.length ht
          simp only [List.length_cons, List.length_nil, List.length_append, List.concat_eq_append] at hl
          constructor <;> apply List.eq_nil_of_length_eq_zero <;> omega
        rcases hd with rfl | hd
        · cases hes
        · exact absurd hd (by decide)
      | @mark _ d _ hm =>
        rw [List.concat_eq_append, ← List.append_assoc] at ht
        obtain rfl : d = e := by simpa using (List.append_inj' ht rfl).2
        obtain rfl := hs d hes
        exact hm (by decide)
  · exact ⟨after', rfl, rfl⟩

namespace Lexeme

variable {c : Char} {rest after : List Char} {lexeme : Lexeme} {verbose : Bool}

/-- A lexeme stays the same in a longer text. -/
theorem read_append (h : read verbose c rest = .ok (lexeme, after)) {more : List Char}
    (hm : ∀ d ∈ more.head?, Inert d) :
    read verbose c (rest ++ more) = .ok (lexeme, after ++ more) ∨
      IsOpenComment verbose c rest ∧ lexeme = .filler ∧ after = [] := by
  rcases takes_read h with ⟨taken, rfl, -, hr⟩ | ho
  · left
    rw [List.append_assoc]
    exact hr _ (continues_append hm after)
  · right
    have hn := read_openComment ho []
    rw [List.append_nil, h] at hn
    cases hn
    exact ⟨ho, rfl, rfl⟩

/-- A lexeme of a text with spaces behind it is one of the text. -/
theorem read_of_append {spaces : List Char} (h : read verbose c (rest ++ spaces) = .ok (lexeme, after))
    (hs : ∀ d ∈ spaces, d = ' ') (hd : Detached (c :: rest) spaces) :
    ∃ after', read verbose c rest = .ok (lexeme, after') ∧ Detached after' spaces ∧
      (after = after' ++ spaces ∨ IsOpenComment verbose c rest ∧ after' = [] ∧ after = []) := by
  rcases takes_read h with ⟨taken, he, hn, hr⟩ | ho
  · obtain ⟨after', rfl, rfl⟩ := hn.split hs hd he
    exact ⟨after', hr after' (continues_of_append after' spaces), hn.detached hd, Or.inl rfl⟩
  · have ho' : IsOpenComment verbose c rest :=
      ⟨ho.verbose, ho.sign, fun hm => ho.noLineEnd (List.mem_append_left _ hm)⟩
    have hl : nextLine spaces = [] :=
      nextLine_eq_nil fun hm => ho.noLineEnd (List.mem_append_right _ hm)
    have hr := read_openComment ho' spaces
    rw [h, hl] at hr
    cases hr
    have hr' := read_openComment ho' []
    rw [List.append_nil] at hr'
    exact ⟨[], hr', Or.inr rfl, Or.inr ⟨ho', rfl, rfl⟩⟩

end Lexeme

end RegexTypeset
