import RegexTypeset.Proofs.LexemeExtent
import RegexTypeset.Sample

/-! # Lexemes of a text with its tabs spelled

A tab is spelled as a backslash and the letter `t`. A tab that stands for itself is then
the escape sequence for it, and one in a comment stays without a meaning. But a tab after
a backslash becomes the letter after an escaped backslash. So every other lexeme is the
same in the spelled text, unless it is the layout of a verbose reading.
-/
namespace RegexTypeset

def escapedTabs : List Char → Nat
  | '\\' :: c :: rest => (if c = '\t' then 1 else 0) + escapedTabs rest
  | _ :: rest => escapedTabs rest
  | [] => 0

theorem escapedTabs_escape (c : Char) (rest : List Char) :
    escapedTabs ('\\' :: c :: rest) = (if c = '\t' then 1 else 0) + escapedTabs rest := by
  rw [escapedTabs]

theorem escapedTabs_cons {c : Char} (h : c ≠ '\\') (rest : List Char) :
    escapedTabs (c :: rest) = escapedTabs rest := by
  rw [escapedTabs]
  intro d rest' hc
  exact absurd hc h

theorem escapedTabs_marks {run : List Char} (h : ∀ c ∈ run, IsMark c) (rest : List Char) :
    escapedTabs (run ++ rest) = escapedTabs rest := by
  induction run with
  | nil => rfl
  | cons c run ih =>
    have hc : c ≠ '\\' := by
      rintro rfl
      exact h _ List.mem_cons_self (by decide)
    rw [List.cons_append, escapedTabs_cons hc]
    exact ih fun d hd => h d (List.mem_cons_of_mem _ hd)

theorem tab_not_mem {run : List Char} (h : ∀ c ∈ run, IsMark c) : '\t' ∉ run := by
  intro hm
  exact h _ hm (by decide)

namespace Sample

variable {text run more : List Char} {c c' : Char}

@[simp] theorem spellTabs_nil : spellTabs [] = [] := rfl

@[simp] theorem spellTabs_tab (text : List Char) :
    spellTabs ('\t' :: text) = '\\' :: 't' :: spellTabs text := rfl

theorem spellTabs_cons (h : c ≠ '\t') (text : List Char) :
    spellTabs (c :: text) = c :: spellTabs text := by
  simp [spellTabs, h]

theorem spellTabs_append (h : '\t' ∉ run) (text : List Char) :
    spellTabs (run ++ text) = run ++ spellTabs text := by
  induction run with
  | nil => rfl
  | cons c run ih =>
    obtain ⟨hc, hr⟩ := List.ne_and_not_mem_of_not_mem_cons h
    rw [List.cons_append, spellTabs_cons hc.symm, ih hr, List.cons_append]

/-- Each character is spelled by itself, or is a tab and spelled from a backslash on. -/
theorem cases_of_spellTabs (h : spellTabs text = c' :: more) :
    ∃ c rest, text = c :: rest ∧
      (c ≠ '\t' ∧ c' = c ∧ more = spellTabs rest ∨
        c = '\t' ∧ c' = '\\' ∧ more = 't' :: spellTabs rest) := by
  cases text with
  | nil => cases h
  | cons c rest =>
    refine ⟨c, rest, rfl, ?_⟩
    by_cases hc : c = '\t'
    · subst hc
      cases h
      exact Or.inr ⟨rfl, rfl, rfl⟩
    · rw [spellTabs_cons hc] at h
      cases h
      exact Or.inl ⟨hc, rfl, rfl⟩

theorem eq_of_spellTabs {rest : List Char} (h : spellTabs (c :: rest) = c' :: more)
    (hc : c' ≠ '\\') : c' = c ∧ more = spellTabs rest := by
  obtain ⟨d, rest', he, ⟨-, rfl, hm⟩ | ⟨-, rfl, -⟩⟩ := cases_of_spellTabs h
  · obtain ⟨rfl, rfl⟩ := List.cons.inj he
    exact ⟨rfl, hm⟩
  · exact absurd rfl hc

/-- Text without a backslash stands in the spelled text as it does in the other one. -/
theorem exists_of_spellTabs_append (h : spellTabs text = run ++ more) (hr : '\\' ∉ run) :
    ∃ rest, text = run ++ rest ∧ spellTabs rest = more := by
  induction run generalizing text with
  | nil => exact ⟨text, rfl, h⟩
  | cons d run ih =>
    obtain ⟨hd, hr⟩ := List.ne_and_not_mem_of_not_mem_cons hr
    obtain ⟨c, rest, rfl, ⟨-, rfl, he⟩ | ⟨-, rfl, -⟩⟩ := cases_of_spellTabs h
    · obtain ⟨rest', rfl, hs⟩ := ih he.symm hr
      exact ⟨rest', rfl, hs⟩
    · exact absurd rfl hd

theorem head_spellTabs (text : List Char) :
    (spellTabs text).head? = text.head? ∨ (spellTabs text).head? = some '\\' := by
  cases text with
  | nil => exact Or.inl rfl
  | cons c rest =>
    by_cases hc : c = '\t'
    · exact Or.inr (by rw [hc]; rfl)
    · exact Or.inl (by rw [spellTabs_cons hc]; rfl)

theorem head_spellTabs_ne (hc : c ≠ '\\') (h : text.head? ≠ some c) :
    (spellTabs text).head? ≠ some c := by
  rcases head_spellTabs text with he | he
  · rwa [he]
  · rw [he]
    intro hs
    exact hc (Option.some.inj hs).symm

/-- What goes on in the spelled text continues a lexeme as it does in the other one. -/
theorem standsIn_spellTabs (text : List Char) : StandsIn text (spellTabs text) := by
  rcases head_spellTabs text with he | he
  · exact Or.inl he
  · refine Or.inr fun c hc => ?_
    obtain rfl : '\\' = c := by simpa [he] using hc
    exact ⟨by decide, by decide⟩

/-- Spelling makes no count where there is none. -/
theorem scan?_spellTabs (h : Count.scan? ('{' :: text) = none) :
    Count.scan? ('{' :: spellTabs text) = none := by
  cases hs : Count.scan? ('{' :: spellTabs text) with
  | none => rfl
  | some result =>
    obtain ⟨run, after, he, hd, hr⟩ := Count.scan?_append hs
    have hb : '\\' ∉ run ++ ['}'] := by
      intro hm
      rcases List.mem_append.mp hm with hm | hm
      · exact Count.isMark_of_count (hd _ hm) (by decide)
      · exact absurd hm (by decide)
    rw [← List.singleton_append, ← List.append_assoc] at he
    obtain ⟨rest, rfl, -⟩ := exists_of_spellTabs_append he hb
    rw [List.append_assoc, List.singleton_append, hr rest] at h
    cases h

/-- Text up to a sign that spells no tab is found by the same sign. -/
theorem dropWhile_spellTabs {stop : Char} (hs : stop ∉ ['\t', '\\', 't']) (text : List Char) :
    (spellTabs text).dropWhile (· ≠ stop) = spellTabs (text.dropWhile (· ≠ stop)) := by
  simp only [List.mem_cons, List.not_mem_nil, or_false, not_or] at hs
  obtain ⟨ht, hb, hl⟩ := hs
  induction text with
  | nil => rfl
  | cons c rest ih =>
    by_cases hc : c = '\t'
    · subst hc
      simp [Ne.symm ht, Ne.symm hb, Ne.symm hl] at ih ⊢
      exact ih
    · by_cases he : c = stop
      · subst he
        simp [spellTabs_cons hc]
      · simp only [spellTabs_cons hc, List.dropWhile_cons, decide_eq_true_eq, if_pos he, ih, ne_eq]

end Sample

open Sample (spellTabs spellTabs_cons spellTabs_append standsIn_spellTabs)

/-- A text without tabs is taken from the spelled text as well. -/
theorem ReadsTo.spelled {α : Type} {read : List Char → List Char → Except Fault (α × List Char)}
    {text taken after : List Char} {a : α} (h : ReadsTo read text taken a after)
    (ht : '\t' ∉ taken) (place : List Char) :
    read place (spellTabs text) = .ok (a, spellTabs after) := by
  obtain ⟨rfl, hr⟩ := h
  rw [spellTabs_append ht]
  exact hr place _ (standsIn_spellTabs after)

/-- What an escape sequence takes holds an escaped tab only right at its start. -/
theorem ReadsTo.escape {α : Type} {read : List Char → Except Fault (α × List Char)}
    {text taken after : List Char} {c : Char} {a : α}
    (h : ReadsTo (fun _ => read) text (c :: taken) a after) (hm : ∀ d ∈ taken, IsMark d) :
    escapedTabs after ≤ escapedTabs ('\\' :: text) ∧
      (escapedTabs ('\\' :: text) ≤ escapedTabs after →
        read (spellTabs text) = .ok (a, spellTabs after)) := by
  have hn : escapedTabs ('\\' :: text) = (if c = '\t' then 1 else 0) + escapedTabs after := by
    rw [h.1, List.cons_append, escapedTabs_escape, escapedTabs_marks hm]
  refine ⟨by omega, fun he => ?_⟩
  have hc : '\t' ≠ c := by
    intro hc
    rw [if_pos hc.symm] at hn
    omega
  have ht : '\t' ∉ c :: taken := List.not_mem_cons_of_ne_of_not_mem hc (tab_not_mem hm)
  exact h.spelled ht []

/-- The text from a character on holds no fewer escaped tabs than what a reader leaves of it. If
it holds no more, the reader makes the same of the spelled text. -/
structure ReadsSpelled {α : Type} (read : Char → List Char → Except Fault (α × List Char))
    (c : Char) (rest : List Char) (a : α) (after : List Char) : Prop where
  le : escapedTabs after ≤ escapedTabs (c :: rest)
  same : escapedTabs (c :: rest) ≤ escapedTabs after →
    ∃ c' more, spellTabs (c :: rest) = c' :: more ∧ read c' more = .ok (a, spellTabs after)

namespace CharClass

variable {place text rest after : List Char} {c lo : Char} {first : Bool} {token : Token}
  {items seen : List Token}

theorem readsSpelled_single (h : single c rest = .ok (token, after)) :
    ReadsSpelled single c rest token after := by
  simp only [single] at h
  split at h
  case isTrue hc =>
    subst hc
    obtain ⟨d, taken, hm, hr⟩ := Escape.readsTo_member h
    obtain ⟨hle, hs⟩ := hr.escape hm
    exact ⟨hle, fun he => ⟨'\\', spellTabs rest, spellTabs_cons (by decide) rest, hs he⟩⟩
  case isFalse hc =>
    cases h
    refine ⟨(escapedTabs_cons hc _).ge, fun _ => ?_⟩
    by_cases ht : c = '\t'
    · subst ht
      exact ⟨'\\', 't' :: spellTabs rest, rfl, rfl⟩
    · exact ⟨c, spellTabs rest, spellTabs_cons ht rest, by simp [single, hc]⟩

theorem readsSpelled_range (h : range place lo c rest = .ok (token, after)) (place' : List Char) :
    ReadsSpelled (range place' lo) c rest token after := by
  simp only [range] at h
  split at h
  case h_1 => cases h
  case h_3 => cases h
  case h_2 hi rest' hs =>
    split at h
    case isTrue => cases h
    case isFalse hlt =>
      cases h
      obtain ⟨hle, hsame⟩ := readsSpelled_single hs
      refine ⟨hle, fun he => ?_⟩
      obtain ⟨c', more, hc, hr⟩ := hsame he
      exact ⟨c', more, hc, by simp [range, hr, hlt]⟩

theorem readsSpelled_member (h : member c rest = .ok (token, after)) :
    ReadsSpelled member c rest token after := by
  simp only [member] at h
  split at h
  case h_1 => cases h
  case h_2 lo d more hs =>
    obtain ⟨hle, hsame⟩ := readsSpelled_single hs
    split at h
    case isTrue hd =>
      cases h
      subst hd
      refine ⟨hle, fun he => ?_⟩
      obtain ⟨c', more', hc, hr⟩ := hsame he
      refine ⟨c', more', hc, ?_⟩
      rw [spellTabs_cons (by decide), spellTabs_cons (by decide)] at hr ⊢
      simp [member, hr]
    case isFalse hd =>
      have hrange := readsSpelled_range h
      have hh : escapedTabs ('-' :: d :: more) = escapedTabs (d :: more) :=
        escapedTabs_cons (by decide) _
      have hle' := (hrange []).le
      refine ⟨by omega, fun he => ?_⟩
      obtain ⟨c', more', hc, hr⟩ := hsame (by omega)
      obtain ⟨d', after', hd', -⟩ := (hrange []).same (by omega)
      have hne : d' ≠ ']' := by
        rintro rfl
        exact hd (Sample.eq_of_spellTabs hd' (by decide)).1.symm
      refine ⟨c', more', hc, ?_⟩
      rw [spellTabs_cons (by decide), hd'] at hr
      simp only [member, hr, if_neg hne]
      obtain ⟨d'', after'', hd'', hr'⟩ := (hrange (c' :: more')).same (by omega)
      obtain ⟨rfl, rfl⟩ := List.cons.inj (hd'.symm.trans hd'')
      exact hr'
  case h_3 result hn hs =>
    cases h
    obtain ⟨hle, hsame⟩ := readsSpelled_single hs
    refine ⟨hle, fun he => ?_⟩
    obtain ⟨c', more', hc, hr⟩ := hsame he
    refine ⟨c', more', hc, ?_⟩
    simp only [member, hr]
    split
    case h_1 hx => cases hx
    case h_3 hx => exact hx.symm
    case h_2 lo d more hx =>
      -- a hyphen and another character stand in the spelled text only if they do in the other
      obtain ⟨rfl, ha⟩ := Prod.mk.inj (Except.ok.inj hx)
      exfalso
      obtain ⟨e, rest₁, rfl, ⟨-, rfl, hm⟩ | ⟨-, hb, -⟩⟩ := Sample.cases_of_spellTabs ha
      · obtain ⟨f, rest₂, rfl, -⟩ := Sample.cases_of_spellTabs hm.symm
        exact hn _ _ _ rfl
      · exact absurd hb (by decide)

theorem escapedTabs_le_of_members (h : members place first seen text = .ok (items, after)) :
    escapedTabs after ≤ escapedTabs text := by
  fun_induction members place first seen text with
  | case1 => cases h
  | case2 first seen c rest stop =>
    cases h
    rw [stop.1, escapedTabs_cons (by decide)]
  | case3 => cases h
  | case4 first seen c rest stays token rest' hm ih =>
    have hle := (readsSpelled_member hm).le
    have hle' := ih h
    omega

theorem members_spelled (h : members place first seen text = .ok (items, after))
    (he : escapedTabs text ≤ escapedTabs after) (place' : List Char) :
    members place' first seen (spellTabs text) = .ok (items, spellTabs after) := by
  fun_induction members place first seen text with
  | case1 => cases h
  | case2 first seen c rest stop =>
    cases h
    rw [stop.1, spellTabs_cons (by decide), members_cons, if_pos ⟨rfl, stop.2⟩]
  | case3 => cases h
  | case4 first seen c rest stays token rest' hm ih =>
    obtain ⟨hle, hsame⟩ := readsSpelled_member hm
    -- what this member leaves lies between the class and the text behind it, and so does the
    -- number of escaped tabs, which is the same for both
    have hle' := escapedTabs_le_of_members h
    obtain ⟨c', more, hc, hr⟩ := hsame (by omega)
    have stays' : ¬ (c' = ']' ∧ first = false) := by
      rintro ⟨rfl, hf⟩
      exact stays ⟨(Sample.eq_of_spellTabs hc (by decide)).1.symm, hf⟩
    rw [hc, members_cons, if_neg stays', hr]
    exact ih h (by omega)

theorem read_spelled (h : read text = .ok (token, after))
    (he : escapedTabs text ≤ escapedTabs after) :
    read (spellTabs text) = .ok (token, spellTabs after) := by
  rcases members_of_read h with ⟨rest, items, rfl, hm, rfl⟩ | ⟨hc, items, hm, rfl⟩
  · rw [escapedTabs_cons (by decide)] at he
    rw [spellTabs_cons (by decide)]
    exact map_token_eq_ok.mpr ⟨items, members_spelled hm he _, rfl⟩
  · rw [read_plain (Sample.head_spellTabs_ne (by decide) hc)]
    exact map_token_eq_ok.mpr ⟨items, members_spelled hm he _, rfl⟩

end CharClass

namespace GroupHeader

variable {opened text after : List Char} {added removed : Flags} {lexeme : Lexeme}

theorem named_spelled {terminator : Char} {kind : String → Lexeme} (ht : terminator ≠ '\t')
    (h : named terminator kind text = .ok (lexeme, after)) :
    named terminator kind (spellTabs text) = .ok (lexeme, spellTabs after) := by
  obtain ⟨name, rfl, hn, hv, rfl⟩ := named_eq_ok.mp h
  rw [spellTabs_append (GroupName.not_mem_of_isValid (by decide +kernel) (by decide) hv), spellTabs_cons ht]
  exact named_eq_ok.mpr ⟨name, rfl, hn, hv, rfl⟩

theorem comment_spelled (h : comment opened text = .ok (lexeme, after)) (opened' : List Char) :
    comment opened' (spellTabs text) = .ok (lexeme, spellTabs after) := by
  simp only [comment] at h
  split at h
  case h_1 => cases h
  case h_2 stop rest hd =>
    cases h
    obtain ⟨run, rfl, -, -, hs⟩ := span_split hd
    obtain rfl : stop = ')' := by simpa using hs
    simp only [comment, Sample.dropWhile_spellTabs (by decide : ')' ∉ _), hd]
    rw [spellTabs_cons (by decide)]

theorem letter_ne_tab {c : Char} {flag : Flags} (h : Flags.ofLetter? c = some flag) : c ≠ '\t' := by
  rintro rfl
  cases h

theorem removals_spelled (h : removals opened added removed text = .ok (lexeme, after))
    (opened' : List Char) :
    removals opened' added removed (spellTabs text) = .ok (lexeme, spellTabs after) := by
  fun_induction removals opened added removed text with
  | case1 => cases h
  | case2 =>
    cases h
    rfl
  | case3 removed c rest _ flag hf ih =>
    rw [spellTabs_cons (letter_ne_tab hf), removals_letter hf]
    exact ih h
  | case4 => cases h

theorem additions_spelled (h : additions opened added text = .ok (lexeme, after))
    (opened' : List Char) :
    additions opened' added (spellTabs text) = .ok (lexeme, spellTabs after) := by
  fun_induction additions opened added text with
  | case1 => cases h
  | case2 =>
    cases h
    rfl
  | case3 =>
    cases h
    rfl
  | case4 added rest => exact removals_spelled h opened'
  | case5 added c rest _ _ _ flag hf ih =>
    rw [spellTabs_cons (letter_ne_tab hf), additions_letter hf]
    exact ih h
  | case6 => cases h

theorem extension_spelled (h : extension opened text = .ok (lexeme, after)) (opened' : List Char) :
    extension opened' (spellTabs text) = .ok (lexeme, spellTabs after) := by
  simp only [extension] at h
  split at h
  case h_3 => exact named_spelled (by decide) h
  case h_4 => exact named_spelled (by decide) h
  case h_11 => exact comment_spelled h opened'
  case h_12 => exact named_spelled (by decide) h
  case h_13 c rest _ _ _ _ _ _ _ _ _ _ _ =>
    split at h
    case isFalse => cases h
    case isTrue hc =>
      have ht : c ≠ '\t' := by
        rintro rfl
        exact absurd hc (by decide)
      have ha := additions_spelled h opened'
      rw [spellTabs_cons ht] at ha ⊢
      rw [extension_flags hc]
      exact ha
  all_goals first | (cases h; rfl) | cases h

theorem read_spelled (h : read text = .ok (lexeme, after)) :
    read (spellTabs text) = .ok (lexeme, spellTabs after) := by
  by_cases hq : text.head? = some '?'
  · obtain ⟨rest, rfl⟩ := List.head?_eq_some_iff.mp hq
    exact extension_spelled h _
  · rw [read_plain hq] at h
    cases h
    exact read_plain (Sample.head_spellTabs_ne (by decide) hq)

end GroupHeader

namespace Lexeme

variable {c : Char} {rest after : List Char} {lexeme : Lexeme} {verbose : Bool}

theorem quantified_spelled {min : UInt32} {max : Option UInt32}
    (h : quantified min max rest = (lexeme, after)) :
    quantified min max (spellTabs rest) = (lexeme, spellTabs after) := by
  obtain ⟨taken, hm, hr⟩ := readsTo_quantified h
  exact Except.ok.inj (hr.spelled (tab_not_mem hm) [])

theorem brace_spelled (h : brace rest = .ok (lexeme, after)) :
    brace (spellTabs rest) = .ok (lexeme, spellTabs after) := by
  rcases cases_of_brace h with ⟨hn, rfl, rfl⟩ | ⟨count, min, max, rest', hp, rfl, hb, hq⟩
  · simp only [brace, Sample.scan?_spellTabs hn]
  · have ht : '\t' ∉ count.inner :=
      tab_not_mem fun d hm => Count.isMark_of_count (hp.inner d hm)
    rw [spellTabs_append ht, spellTabs_cons (by decide), brace_written hp, hb]
    exact congrArg Except.ok (quantified_spelled hq)

theorem nextLine_spellTabs (text : List Char) :
    nextLine (spellTabs text) = spellTabs (nextLine text) := by
  rw [nextLine, Sample.dropWhile_spellTabs (by decide : '\n' ∉ _), nextLine]
  cases hd : text.dropWhile (· ≠ '\n') with
  | nil => rfl
  | cons stop rest =>
    obtain ⟨run, -, -, -, hs⟩ := span_split hd
    obtain rfl : stop = '\n' := by simpa using hs
    rfl

/-- Whether the text of a lexeme, up to what follows it, holds a tab that means something else when
it is spelled: one that is layout, or one that is escaped in an item. -/
def losesTab (text after : List Char) : Lexeme → Bool
  | .filler => text.head? = some '\t'
  | .item _ => escapedTabs after < escapedTabs text
  | _ => false

theorem escapedTabs_le_of_item {token : Token}
    (h : losesTab (c :: rest) after (.item token) = false) :
    escapedTabs (c :: rest) ≤ escapedTabs after := by
  simpa [losesTab] using h

theorem solid_spelled (hc : c ≠ '\t') (h : solid c rest = .ok (lexeme, after))
    (hl : lexeme.losesTab (c :: rest) after = false) :
    solid c (spellTabs rest) = .ok (lexeme, spellTabs after) := by
  simp only [solid] at h
  split at h
  case h_3 => exact congrArg Except.ok (quantified_spelled (Except.ok.inj h))
  case h_4 => exact congrArg Except.ok (quantified_spelled (Except.ok.inj h))
  case h_5 => exact congrArg Except.ok (quantified_spelled (Except.ok.inj h))
  case h_6 => exact brace_spelled h
  case h_7 => exact GroupHeader.read_spelled h
  case h_8 =>
    obtain ⟨token, hr, rfl⟩ := eq_of_ofToken h
    have he := escapedTabs_le_of_item hl
    rw [escapedTabs_cons (by decide)] at he
    simp only [solid, CharClass.read_spelled hr he]
    rfl
  case h_9 =>
    obtain ⟨token, hr, rfl⟩ := eq_of_ofToken h
    obtain ⟨d, taken, hm, ht⟩ := Escape.readsTo_item hr
    have he := escapedTabs_le_of_item hl
    simp only [solid, (ht.escape hm).2 he]
    rfl
  all_goals
    cases h
    simp [solid]

/-- A lexeme that loses no tab starts the spelled text as well. -/
theorem read_spelled (h : read verbose c rest = .ok (lexeme, after))
    (hl : lexeme.losesTab (c :: rest) after = false) :
    ∃ c' more, spellTabs (c :: rest) = c' :: more ∧
      read verbose c' more = .ok (lexeme, spellTabs after) := by
  by_cases hc : c = '\t'
  · subst hc
    cases verbose with
    | false =>
      cases h
      exact ⟨'\\', 't' :: spellTabs rest, rfl, rfl⟩
    | true =>
      have hb : isBlank '\t' = true := by decide
      simp only [read, hb, Bool.and_self, if_true, Except.ok.injEq, Prod.mk.injEq] at h
      obtain ⟨rfl, rfl⟩ := h
      exact absurd hl (by simp [losesTab])
  · refine ⟨c, spellTabs rest, spellTabs_cons hc rest, ?_⟩
    simp only [read] at h
    split at h
    case isTrue hb =>
      cases h
      simp only [read, if_pos hb]
    case isFalse hb =>
      split at h
      case isTrue hs =>
        cases h
        simp only [read, if_neg hb, if_pos hs, nextLine_spellTabs]
      case isFalse hs =>
        simp only [read, if_neg hb, if_neg hs]
        exact solid_spelled hc h hl

end Lexeme

end RegexTypeset
