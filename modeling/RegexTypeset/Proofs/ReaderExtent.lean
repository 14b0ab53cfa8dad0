import RegexTypeset.Lexeme.Read

/-! # How far the readers reach

Escape sequences depend on whether a digit follows. Classes, headers and counts end with
a character of their own and do not depend on what follows at all. So the text behind
may be replaced by another one that goes on in the same way.
-/
namespace RegexTypeset

def Inert (c : Char) : Prop := c.isDigit = false ∧ c ∉ ['?', ',', '}']

/-- The second text may follow where the first one does: it starts with the same character or
with an inert one. -/
def StandsIn (after after' : List Char) : Prop :=
  after'.head? = after.head? ∨ ∀ c ∈ after'.head?, Inert c

theorem StandsIn.not_mem {after after' : List Char} (h : StandsIn after after') {p : Char → Bool}
    (hp : ∀ c, Inert c → p c = false) (ha : ∀ c ∈ after.head?, p c = false) :
    ∀ c ∈ after'.head?, p c = false := by
  intro c hc
  rcases h with h | h
  · exact ha c (h ▸ hc)
  · exact hp c (h c hc)

/-- A reading takes the text `taken`, whatever follows instead of the rest. The first argument
of a reader is the place that its faults point at. -/
def ReadsTo {α : Type} (read : List Char → List Char → Except Fault (α × List Char))
    (text taken : List Char) (a : α) (after : List Char) : Prop :=
  text = taken ++ after ∧
    ∀ place after', StandsIn after after' → read place (taken ++ after') = .ok (a, after')

/-- A reading that ends with a given character does not depend on what follows. -/
def ReadsUpTo {α : Type} (read : List Char → List Char → Except Fault (α × List Char))
    (text : List Char) (stop : Char) (a : α) (after : List Char) : Prop :=
  ∃ taken, text = taken ++ stop :: after ∧
    ∀ place after', read place (taken ++ stop :: after') = .ok (a, after')

def IsMark (c : Char) : Prop := c ∉ [' ', '\t', '\\']

instance (c : Char) : Decidable (IsMark c) := inferInstanceAs (Decidable (c ∉ [' ', '\t', '\\']))

theorem isMark_of {p : Char → Bool} {c : Char} (hp : [' ', '\t', '\\'].any p = false)
    (h : p c = true) : IsMark c := by
  intro hc
  have ha := List.any_eq_true.mpr ⟨c, hc, h⟩
  exact absurd (hp.symm.trans ha) (by decide)

theorem isMark_of_isDigit {c : Char} (h : c.isDigit = true) : IsMark c := isMark_of (by decide) h

/-- A bounded run ends where the bound is reached or another character follows. -/
theorem takeWhile_take_split (p : Char → Bool) (k : Nat) (text : List Char) :
    ∃ run after, text = run ++ after ∧ (text.take k).takeWhile p = run ∧ run.length ≤ k ∧
      (∀ c ∈ run, p c = true) ∧ (run.length = k ∨ ∀ c ∈ after.head?, p c = false) := by
  induction text generalizing k with
  | nil => exact ⟨[], [], rfl, by simp, by simp, by simp, Or.inr (by simp)⟩
  | cons c text ih =>
    cases k with
    | zero => exact ⟨[], c :: text, rfl, by simp, by simp, by simp, Or.inl rfl⟩
    | succ k =>
      cases hc : p c with
      | false => exact ⟨[], c :: text, rfl, by simp [hc], by simp, by simp, Or.inr (by simp [hc])⟩
      | true =>
        obtain ⟨run, after, rfl, ht, hl, hr, he⟩ := ih k
        refine ⟨c :: run, after, rfl, ?_, by simpa using hl, ?_, ?_⟩
        · simp [hc, ht]
        · intro d hd
          rcases List.mem_cons.mp hd with rfl | hd
          · exact hc
          · exact hr d hd
        · rcases he with he | he
          · exact Or.inl (by simp [he])
          · exact Or.inr he

theorem takeWhile_take_append {p : Char → Bool} {k : Nat} {run after : List Char}
    (hl : run.length ≤ k) (hr : ∀ c ∈ run, p c = true)
    (he : run.length = k ∨ ∀ c ∈ after.head?, p c = false) :
    ((run ++ after).take k).takeWhile p = run := by
  induction run generalizing k with
  | nil =>
    cases after with
    | nil => simp
    | cons c after =>
      cases k with
      | zero => rfl
      | succ k =>
        have hc : p c = false := by simpa using he
        simp [hc]
  | cons d run ih =>
    cases k with
    | zero => simp at hl
    | succ k =>
      have hd := hr d List.mem_cons_self
      have hi := ih (k := k) (by simpa using hl) (fun c hc => hr c (List.mem_cons_of_mem _ hc))
        (by simpa using he)
      simp [hd, hi]

/-- A run ends at the first other character. -/
theorem span_split {p : Char → Bool} {text after : List Char} {stop : Char}
    (h : text.dropWhile p = stop :: after) :
    ∃ run, text = run ++ stop :: after ∧ text.takeWhile p = run ∧ (∀ c ∈ run, p c = true) ∧
      p stop = false := by
  refine ⟨text.takeWhile p, ?_, rfl, List.all_eq_true.mp List.all_takeWhile, ?_⟩
  · rw [← h, List.takeWhile_append_dropWhile]
  · have hs := List.head?_dropWhile_not p text
    rw [h] at hs
    simpa using hs

theorem span_append {p : Char → Bool} {run : List Char} (hr : ∀ c ∈ run, p c = true) {stop : Char}
    (hs : p stop = false) (after : List Char) :
    (run ++ stop :: after).takeWhile p = run ∧ (run ++ stop :: after).dropWhile p = stop :: after := by
  constructor
  · rw [List.takeWhile_append_of_pos hr]
    simp [hs]
  · rw [List.dropWhile_append_of_pos hr]
    simp [hs]

/-- A text without a character is a run of others. -/
theorem not_mem_iff_run {stop : Char} {text : List Char} :
    stop ∉ text ↔ ∀ c ∈ text, decide (c ≠ stop) = true := by
  constructor
  · intro h c hc
    have hne : c ≠ stop := by
      rintro rfl
      exact h hc
    simpa using hne
  · intro h hm
    simpa using h stop hm

namespace Escape

theorem isDigit_of_isOctal {c : Char} (h : isOctal c = true) : c.isDigit = true := by
  simp only [isOctal, Bool.and_eq_true, decide_eq_true_eq, Char.le_def] at h
  have hu : c.val ≤ '9'.val := Nat.le_trans h.2 (by decide)
  simp only [Char.isDigit, Bool.and_eq_true, decide_eq_true_eq]
  exact ⟨h.1, hu⟩

theorem not_isOctal_of_inert {c : Char} (h : Inert c) : isOctal c = false := by
  cases ho : isOctal c with
  | false => rfl
  | true =>
    have hd := isDigit_of_isOctal ho
    exact absurd (h.1.symm.trans hd) (by decide)

theorem isMark_of_isHex {c : Char} (h : isHex c = true) : IsMark c := isMark_of (by decide) h

theorem readsTo_octal {text rest after : List Char} {first c : Char}
    (h : octal text first rest = .ok (c, after)) :
    ∃ taken, (∀ d ∈ taken, IsMark d) ∧ ReadsTo (octal · first ·) rest taken c after := by
  obtain ⟨run, tail, rfl, ht, hl, hr, he⟩ := takeWhile_take_split isOctal 2 rest
  simp only [octal, ht] at h
  split at h
  case h_2 => cases h
  case h_1 c' hc =>
    simp only [List.drop_left, Except.ok.injEq, Prod.mk.injEq] at h
    obtain ⟨rfl, rfl⟩ := h
    refine ⟨run, fun d hd => isMark_of_isDigit (isDigit_of_isOctal (hr d hd)), rfl, ?_⟩
    intro place after' hs
    have he' : run.length = 2 ∨ ∀ c ∈ after'.head?, isOctal c = false :=
      he.imp_right (hs.not_mem fun _ => not_isOctal_of_inert)
    simp [octal, takeWhile_take_append hl hr he', hc]

theorem readsTo_hex {text rest after : List Char} {marker c : Char} {size : Nat}
    (h : hex text marker size rest = .ok (c, after)) :
    ∃ taken, (∀ d ∈ taken, IsMark d) ∧ ReadsTo (hex · marker size ·) rest taken c after := by
  obtain ⟨run, tail, rfl, ht, hl, hr, -⟩ := takeWhile_take_split isHex size rest
  simp only [hex, ht] at h
  by_cases hz : run.length = size
  · subst hz
    rw [if_pos rfl] at h
    split at h
    case h_2 => cases h
    case h_1 c' hc =>
      simp only [List.drop_left, Except.ok.injEq, Prod.mk.injEq] at h
      obtain ⟨rfl, rfl⟩ := h
      refine ⟨run, fun d hd => isMark_of_isHex (hr d hd), rfl, ?_⟩
      intro place after' _
      simp only [hex, takeWhile_take_append hl hr (Or.inl rfl), if_pos, hc, List.drop_left]
  · rw [if_neg hz] at h
    cases h

theorem readsTo_simple {text rest after : List Char} {c d : Char}
    (h : simple text c rest = .ok (d, after)) :
    ∃ taken, (∀ e ∈ taken, IsMark e) ∧ ReadsTo (simple · c ·) rest taken d after := by
  simp only [simple] at h
  split at h
  case h_1 hc =>
    cases h
    exact ⟨[], by simp, rfl, fun place after' _ => by simp [simple, hc]⟩
  case h_2 size hc hs =>
    obtain ⟨taken, hm, hr, ha⟩ := readsTo_hex h
    exact ⟨taken, hm, hr, fun place after' hi => by simpa [simple, hc, hs] using ha place after' hi⟩
  case h_3 hc hs =>
    split at h
    case isTrue => cases h
    case isFalse hn =>
      cases h
      refine ⟨[], by simp, rfl, fun place after' _ => ?_⟩
      simp only [simple, hc, hs, List.nil_append, if_neg hn]

theorem numbered_of_not_isOctal {first : Char} {rest : List Char}
    (h : ∀ second third rest', rest = second :: third :: rest' →
      (isOctal first && isOctal second && isOctal third) = false) (text : List Char) :
    numbered text first rest = .ok (groupNumber first rest) := by
  unfold numbered
  split
  case h_1 second third rest' => simp [h second third rest' rfl]
  case h_2 => rfl

theorem readsTo_code {text after : List Char} {first second third : Char} {token : Token}
    {rest : List Char} (ho : (isOctal first && isOctal second && isOctal third) = true)
    (h : numbered text first (second :: third :: rest) = .ok (token, after)) :
    ∃ taken, (∀ d ∈ taken, IsMark d) ∧
      ReadsTo (numbered · first ·) (second :: third :: rest) taken token after := by
  simp only [numbered, ho, if_true] at h
  split at h
  case h_2 => cases h
  case h_1 c hc =>
    cases h
    refine ⟨[second, third], ?_, rfl, fun place after' _ => by simp [numbered, ho, hc]⟩
    simp only [Bool.and_eq_true] at ho
    intro d hd
    have hd' : d = second ∨ d = third := by simpa using hd
    rcases hd' with rfl | rfl
    · exact isMark_of_isDigit (isDigit_of_isOctal ho.1.2)
    · exact isMark_of_isDigit (isDigit_of_isOctal ho.2)

/-- The text that stands in for another one does not complete three octal digits either. -/
theorem not_code_of_standsIn {first : Char} {run tail after' : List Char}
    (hn : ∀ second third rest', run ++ tail = second :: third :: rest' →
      (isOctal first && isOctal second && isOctal third) = false)
    (hl : run.length ≤ 1) (he : run.length = 1 ∨ ∀ c ∈ after'.head?, c.isDigit = false)
    (hs : StandsIn tail after') :
    ∀ second third rest', run ++ after' = second :: third :: rest' →
      (isOctal first && isOctal second && isOctal third) = false := by
  intro second third rest' hx
  rcases run with _ | ⟨d, _ | ⟨e, run⟩⟩
  · obtain rfl : after' = second :: third :: rest' := hx
    have hd : second.isDigit = false := by simpa using he
    have ho : isOctal second = false := by
      rw [← Bool.not_eq_true]
      intro ho
      exact absurd (hd.symm.trans (isDigit_of_isOctal ho)) (by decide)
    simp [ho]
  · obtain ⟨rfl, rfl⟩ : d = second ∧ after' = third :: rest' := by simpa using hx
    rcases hs with hs | hs
    · obtain ⟨tail', rfl⟩ := List.head?_eq_some_iff.mp hs.symm
      exact hn d third tail' rfl
    · simp [not_isOctal_of_inert (hs third rfl)]
  · simp at hl

theorem readsTo_numbered {text rest after : List Char} {first : Char} {token : Token}
    (h : numbered text first rest = .ok (token, after)) :
    ∃ taken, (∀ d ∈ taken, IsMark d) ∧ ReadsTo (numbered · first ·) rest taken token after := by
  by_cases ho : ∃ second third rest', rest = second :: third :: rest' ∧
      (isOctal first && isOctal second && isOctal third) = true
  · obtain ⟨second, third, rest', rfl, ho⟩ := ho
    exact readsTo_code ho h
  · have hn : ∀ second third rest', rest = second :: third :: rest' →
        (isOctal first && isOctal second && isOctal third) = false := by
      intro second third rest' he
      rw [← Bool.not_eq_true]
      intro hb
      exact ho ⟨second, third, rest', he, hb⟩
    rw [numbered_of_not_isOctal hn] at h
    obtain ⟨run, tail, rfl, ht, hl, hr, he⟩ := takeWhile_take_split Char.isDigit 1 rest
    simp only [groupNumber, ht, List.drop_left, Except.ok.injEq, Prod.mk.injEq] at h
    obtain ⟨rfl, rfl⟩ := h
    refine ⟨run, fun d hd => isMark_of_isDigit (hr d hd), rfl, ?_⟩
    intro place after' hs
    have he' : run.length = 1 ∨ ∀ c ∈ after'.head?, c.isDigit = false :=
      he.imp_right (hs.not_mem fun _ hi => hi.1)
    have hn' := numbered_of_not_isOctal (not_code_of_standsIn hn hl he' hs) place
    simpa [groupNumber, takeWhile_take_append hl hr he'] using hn'

theorem readsTo_literal (read : List Char → List Char → Except Fault (Char × List Char))
    {place text after : List Char} {token : Token}
    (hr : ∀ {c}, read place text = .ok (c, after) →
      ∃ taken, (∀ d ∈ taken, IsMark d) ∧ ReadsTo read text taken c after)
    (h : literal (read place text) = .ok (token, after)) :
    ∃ taken, (∀ d ∈ taken, IsMark d) ∧
      ReadsTo (fun place text => literal (read place text)) text taken token after := by
  obtain ⟨c, hc, rfl⟩ := eq_of_literal h
  obtain ⟨taken, hm, ht, ha⟩ := hr hc
  exact ⟨taken, hm, ht, fun place after' hs => by simp [literal, ha place after' hs, Except.map]⟩

/-- An escape sequence is one character and what a code or a number takes after it. -/
theorem readsTo_item {text after : List Char} {token : Token}
    (h : item text = .ok (token, after)) :
    ∃ c taken, (∀ d ∈ taken, IsMark d) ∧ ReadsTo (fun _ => item) text (c :: taken) token after := by
  cases text with
  | nil => cases h
  | cons c rest =>
    refine ⟨c, ?_⟩
    simp only [item] at h
    split at h
    case h_1 hc =>
      cases h
      exact ⟨[], by simp, rfl, fun place after' _ => by simp [item, hc]⟩
    case h_2 hc ha =>
      cases h
      exact ⟨[], by simp, rfl, fun place after' _ => by simp [item, hc, ha]⟩
    case h_3 hc ha =>
      split at h
      case isTrue h0 =>
        subst h0
        obtain ⟨taken, hm, rfl, hr⟩ := readsTo_literal (octal · '0' ·) readsTo_octal h
        exact ⟨taken, hm, rfl, fun place after' hs => hr _ after' hs⟩
      case isFalse h0 =>
        split at h
        case isTrue hd =>
          obtain ⟨taken, hm, rfl, hr⟩ := readsTo_numbered h
          exact ⟨taken, hm, rfl, fun place after' hs => by
            simpa [item, hc, ha, h0, hd] using hr _ after' hs⟩
        case isFalse hd =>
          obtain ⟨taken, hm, rfl, hr⟩ := readsTo_literal (simple · c ·) readsTo_simple h
          exact ⟨taken, hm, rfl, fun place after' hs => by
            simpa [item, hc, ha, h0, hd] using hr _ after' hs⟩

theorem readsTo_member {text after : List Char} {token : Token}
    (h : member text = .ok (token, after)) :
    ∃ c taken, (∀ d ∈ taken, IsMark d) ∧
      ReadsTo (fun _ => member) text (c :: taken) token after := by
  cases text with
  | nil => cases h
  | cons c rest =>
    refine ⟨c, ?_⟩
    simp only [member] at h
    split at h
    case h_1 hc =>
      cases h
      exact ⟨[], by simp, rfl, fun place after' _ => by simp [member, hc]⟩
    case h_2 hc =>
      split at h
      case isTrue hb =>
        cases h
        subst hb
        exact ⟨[], by simp, rfl, fun place after' _ => rfl⟩
      case isFalse hb =>
        split at h
        case isTrue ho =>
          obtain ⟨taken, hm, rfl, hr⟩ := readsTo_literal (octal · c ·) readsTo_octal h
          exact ⟨taken, hm, rfl, fun place after' hs => by
            simpa [member, hc, hb, ho] using hr _ after' hs⟩
        case isFalse ho =>
          obtain ⟨taken, hm, rfl, hr⟩ := readsTo_literal (simple · c ·) readsTo_simple h
          exact ⟨taken, hm, rfl, fun place after' hs => by
            simpa [member, hc, hb, ho] using hr _ after' hs⟩

end Escape

namespace CharClass

theorem readsTo_single {c : Char} {rest after : List Char} {token : Token}
    (h : single c rest = .ok (token, after)) :
    ∃ taken, ReadsTo (fun _ => single c) rest taken token after := by
  simp only [single] at h
  split at h
  case isTrue hc =>
    subst hc
    obtain ⟨d, taken, -, rfl, hr⟩ := Escape.readsTo_member h
    exact ⟨d :: taken, rfl, fun place after' hs => by simpa [single] using hr place after' hs⟩
  case isFalse hc =>
    cases h
    exact ⟨[], rfl, fun place after' _ => by simp [single, hc]⟩

theorem readsTo_range {text rest after : List Char} {lo c : Char} {token : Token}
    (h : range text lo c rest = .ok (token, after)) :
    ∃ taken, ReadsTo (range · lo c ·) rest taken token after := by
  simp only [range] at h
  split at h
  case h_1 => cases h
  case h_2 hi rest' hs =>
    split at h
    case isTrue => cases h
    case isFalse hle =>
      cases h
      obtain ⟨taken, rfl, hr⟩ := readsTo_single hs
      exact ⟨taken, rfl, fun place after' hi => by simp [range, hr place after' hi, hle]⟩
  case h_3 => cases h

theorem exists_of_take_two {a b : Char} {text more : List Char}
    (h : text.take 2 = (a :: b :: more).take 2) : ∃ more', text = a :: b :: more' := by
  rcases text with _ | ⟨c, _ | ⟨d, more'⟩⟩
  · simp at h
  · simp at h
  · obtain ⟨rfl, rfl⟩ : c = a ∧ d = b := by simpa using h
    exact ⟨more', rfl⟩

/-- A member depends on the character after it, and if that is a hyphen, on the next one. -/
theorem member_append {c : Char} {rest after : List Char} {token : Token}
    (h : member c rest = .ok (token, after)) :
    ∃ taken, rest = taken ++ after ∧ ∀ after', after'.head? = after.head? →
      (after.head? = some '-' → after'.take 2 = after.take 2) →
        member c (taken ++ after') = .ok (token, after') := by
  simp only [member] at h
  split at h
  case h_1 => cases h
  case h_2 lo d more hs =>
    obtain ⟨taken, rfl, hr⟩ := readsTo_single hs
    split at h
    case isTrue hd =>
      cases h
      refine ⟨taken, rfl, fun after' hh ht => ?_⟩
      obtain ⟨more', rfl⟩ := exists_of_take_two (ht rfl)
      have hs' := hr [] ('-' :: d :: more') (Or.inl rfl)
      simp only [member, hs', if_pos hd]
    case isFalse hd =>
      obtain ⟨more, rfl, hm⟩ := readsTo_range h
      refine ⟨taken ++ '-' :: d :: more, by simp, fun after' hh _ => ?_⟩
      have hs' := hr [] ('-' :: d :: (more ++ after')) (Or.inl rfl)
      have hm' := hm (c :: (taken ++ '-' :: d :: (more ++ after'))) after' (Or.inl hh)
      simp only [List.append_assoc, List.cons_append, member, hs', hd, if_false]
      exact hm'
  case h_3 result hn hs =>
    cases h
    obtain ⟨taken, rfl, hr⟩ := readsTo_single hs
    refine ⟨taken, rfl, fun after' hh ht => ?_⟩
    have hs' := hr [] after' (Or.inl hh)
    simp only [member, hs']
    split
    case h_1 he => cases he
    case h_2 lo d more he =>
      cases he
      obtain ⟨more', rfl⟩ := exists_of_take_two (ht (by simpa using hh.symm)).symm
      exact absurd rfl (hn lo d more')
    case h_3 he => exact he.symm

theorem readsUpTo_members {opened text after : List Char} {first : Bool} {seen items : List Token}
    (h : members opened first seen text = .ok (items, after)) :
    ReadsUpTo (members · first seen ·) text ']' items after := by
  fun_induction members opened first seen text with
  | case1 => cases h
  | case2 first seen c rest stop =>
    cases h
    obtain ⟨rfl, rfl⟩ := stop
    exact ⟨[], rfl, fun place after' => by simp [members_cons]⟩
  | case3 => cases h
  | case4 first seen c rest stays token rest' hm ih =>
    obtain ⟨taken, rfl, hr⟩ := ih h
    obtain ⟨front, rfl, hf⟩ := member_append hm
    refine ⟨c :: (front ++ taken), by simp, fun place after' => ?_⟩
    have hh : (taken ++ ']' :: after').head? = (taken ++ ']' :: after).head? := by
      cases taken <;> rfl
    have ht (hd : (taken ++ ']' :: after).head? = some '-') :
        (taken ++ ']' :: after').take 2 = (taken ++ ']' :: after).take 2 := by
      rcases taken with _ | ⟨a, _ | ⟨b, taken⟩⟩
      · simp at hd
      · rfl
      · rfl
    have hm' := hf (taken ++ ']' :: after') hh ht
    simp only [List.cons_append, List.append_assoc, members_cons, if_neg stays, hm']
    exact hr place after'

theorem read_plain {text : List Char} (h : text.head? ≠ some '^') :
    read text = (members ('[' :: text) true [] text).map
      fun (items, rest) => (token false items, rest) := by
  unfold read
  split
  case h_1 => exact absurd rfl h
  case h_2 => rfl

theorem map_token_eq_ok {negated : Bool} {opened rest after : List Char} {item : Token} :
    (members opened true [] rest).map (fun (items, rest) => (token negated items, rest)) =
        .ok (item, after) ↔
      ∃ items, members opened true [] rest = .ok (items, after) ∧ item = token negated items := by
  constructor
  · intro h
    cases found : members opened true [] rest with
    | error fault => rw [found] at h; cases h
    | ok result => rw [found] at h; cases h; exact ⟨_, rfl, rfl⟩
  · rintro ⟨items, found, rfl⟩
    rw [found]
    rfl

/-- A class starts with the sign that negates it, or its members are the whole text. -/
theorem members_of_read {text after : List Char} {item : Token}
    (h : read text = .ok (item, after)) :
    (∃ rest items, text = '^' :: rest ∧
      members ('[' :: text) true [] rest = .ok (items, after) ∧ item = token true items) ∨
    text.head? ≠ some '^' ∧ ∃ items,
      members ('[' :: text) true [] text = .ok (items, after) ∧ item = token false items := by
  by_cases hc : text.head? = some '^'
  · obtain ⟨rest, rfl⟩ := List.head?_eq_some_iff.mp hc
    obtain ⟨items, hm, ht⟩ := map_token_eq_ok.mp h
    exact Or.inl ⟨rest, items, rfl, hm, ht⟩
  · rw [read_plain hc] at h
    exact Or.inr ⟨hc, map_token_eq_ok.mp h⟩

theorem readsUpTo_read {text after : List Char} {item : Token}
    (h : read text = .ok (item, after)) : ReadsUpTo (fun _ => read) text ']' item after := by
  rcases members_of_read h with ⟨rest, items, rfl, hm, rfl⟩ | ⟨hc, items, hm, rfl⟩
  · obtain ⟨taken, rfl, hr⟩ := readsUpTo_members hm
    exact ⟨'^' :: taken, rfl, fun place after' => map_token_eq_ok.mpr ⟨items, hr _ after', rfl⟩⟩
  · obtain ⟨taken, rfl, hr⟩ := readsUpTo_members hm
    refine ⟨taken, rfl, fun place after' => ?_⟩
    have hc' : (taken ++ ']' :: after').head? ≠ some '^' := by
      cases taken with
      | nil => simp
      | cons c taken => exact hc
    show read (taken ++ ']' :: after') = _
    rw [read_plain hc']
    exact map_token_eq_ok.mpr ⟨items, hr _ after', rfl⟩

end CharClass

namespace GroupName

/-- What is neither part of an identifier nor a digit is in no name. -/
theorem not_mem_of_isValid {c terminator : Char} (hp : isPart c = false) (hd : c.isDigit = false)
    {name : List Char} (h : isValid terminator name = true) : c ∉ name := by
  intro hm
  simp only [isValid, Bool.or_eq_true, Bool.and_eq_true] at h
  rcases h with h | ⟨-, h⟩
  · cases name with
    | nil => cases h
    | cons first rest =>
      simp only [isIdentifier, Bool.and_eq_true, List.all_eq_true] at h
      exact absurd (hp.symm.trans (h.2 _ hm)) (by decide)
  · simp only [isNumber, Bool.and_eq_true, List.all_eq_true] at h
    exact absurd (hd.symm.trans (h.2 _ hm)) (by decide)

end GroupName

namespace GroupHeader

theorem named_eq_ok {terminator : Char} {kind : String → Lexeme} {text after : List Char}
    {lexeme : Lexeme} : named terminator kind text = .ok (lexeme, after) ↔
      ∃ name, text = name ++ terminator :: after ∧ terminator ∉ name ∧
        GroupName.isValid terminator name = true ∧ lexeme = kind (String.ofList name) := by
  simp only [named, GroupName.read]
  constructor
  · intro h
    cases hd : text.dropWhile (· ≠ terminator) with
    | nil => rw [hd] at h; cases h
    | cons stop rest =>
      obtain ⟨run, rfl, ht, hr, hs⟩ := span_split hd
      obtain rfl : stop = terminator := by simpa using hs
      rw [hd, ht] at h
      by_cases hv : GroupName.isValid stop run
      · simp only [hv, if_true, Except.map, Except.ok.injEq, Prod.mk.injEq] at h
        obtain ⟨rfl, rfl⟩ := h
        exact ⟨run, rfl, not_mem_iff_run.mpr hr, hv, rfl⟩
      · simp [hv, Except.map] at h
  · rintro ⟨name, rfl, hn, hv, rfl⟩
    obtain ⟨ht, hd⟩ := span_append (not_mem_iff_run.mp hn)
      (by simp : decide (terminator ≠ terminator) = false) after
    simp only [ht, hd, hv, if_true, Except.map]

theorem readsUpTo_named {terminator : Char} {kind : String → Lexeme} {text after : List Char}
    {lexeme : Lexeme} (h : named terminator kind text = .ok (lexeme, after)) :
    ReadsUpTo (fun _ => named terminator kind) text terminator lexeme after := by
  obtain ⟨name, rfl, hn, hv, rfl⟩ := named_eq_ok.mp h
  exact ⟨name, rfl, fun place after' => named_eq_ok.mpr ⟨name, rfl, hn, hv, rfl⟩⟩

theorem readsUpTo_comment {opened text after : List Char} {lexeme : Lexeme}
    (h : comment opened text = .ok (lexeme, after)) : ReadsUpTo comment text ')' lexeme after := by
  simp only [comment] at h
  split at h
  case h_1 => cases h
  case h_2 stop rest hd =>
    cases h
    obtain ⟨run, rfl, -, hr, hs⟩ := span_split hd
    obtain rfl : stop = ')' := by simpa using hs
    refine ⟨run, rfl, fun place after' => ?_⟩
    obtain ⟨-, hd'⟩ := span_append hr hs after'
    simp only [comment, hd']

theorem removals_letter {c : Char} {flag : Flags} (h : Flags.ofLetter? c = some flag)
    (opened : List Char) (added removed : Flags) (rest : List Char) :
    removals opened added removed (c :: rest) = removals opened added (removed ∪ flag) rest := by
  rw [removals]
  · rw [h]
  · -- the letter of a flag is none of the signs between flags
    rintro rfl
    cases h

theorem additions_letter {c : Char} {flag : Flags} (h : Flags.ofLetter? c = some flag)
    (opened : List Char) (added : Flags) (rest : List Char) :
    additions opened added (c :: rest) = additions opened (added ∪ flag) rest := by
  rw [additions]
  · rw [h]
  all_goals
    rintro rfl
    cases h

theorem readsUpTo_removals {opened text after : List Char} {added removed : Flags}
    {lexeme : Lexeme} (h : removals opened added removed text = .ok (lexeme, after)) :
    ReadsUpTo (removals · added removed ·) text ':' lexeme after := by
  fun_induction removals opened added removed text with
  | case1 => cases h
  | case2 => cases h; exact ⟨[], rfl, fun place after' => rfl⟩
  | case3 removed c rest _ flag hf ih =>
    obtain ⟨run, rfl, hr⟩ := ih h
    refine ⟨c :: run, rfl, fun place after' => ?_⟩
    exact (removals_letter hf place added removed _).trans (hr place after')
  | case4 => cases h

theorem readsUpTo_additions {opened text after : List Char} {added : Flags} {lexeme : Lexeme}
    (h : additions opened added text = .ok (lexeme, after)) :
    ∃ stop, (stop = ')' ∨ stop = ':') ∧ ReadsUpTo (additions · added ·) text stop lexeme after := by
  fun_induction additions opened added text with
  | case1 => cases h
  | case2 => cases h; exact ⟨')', Or.inl rfl, [], rfl, fun place after' => rfl⟩
  | case3 => cases h; exact ⟨':', Or.inr rfl, [], rfl, fun place after' => rfl⟩
  | case4 added rest =>
    obtain ⟨run, rfl, hr⟩ := readsUpTo_removals h
    exact ⟨':', Or.inr rfl, '-' :: run, rfl, fun place after' => hr place after'⟩
  | case5 added c rest _ _ _ flag hf ih =>
    obtain ⟨stop, hs, run, rfl, hr⟩ := ih h
    refine ⟨stop, hs, c :: run, rfl, fun place after' => ?_⟩
    exact (additions_letter hf place added _).trans (hr place after')
  | case6 => cases h

/-- A hyphen or the letter of a flag starts a list of flags. -/
theorem extension_flags {c : Char} (h : c = '-' ∨ (Flags.ofLetter? c).isSome) (opened rest : List Char) :
    extension opened (c :: rest) = additions opened ∅ (c :: rest) := by
  unfold extension
  split
  case h_1 he => cases he
  case h_13 he => cases he; rw [if_pos h]
  all_goals
    rename_i he
    cases he
    exact absurd h (by decide)

theorem readsUpTo_extension {opened text after : List Char} {lexeme : Lexeme}
    (h : extension opened text = .ok (lexeme, after)) :
    ∃ stop, IsMark stop ∧ ReadsUpTo extension text stop lexeme after := by
  simp only [extension] at h
  split at h
  case h_1 => cases h
  case h_2 => cases h; exact ⟨':', by decide, [], rfl, fun place after' => rfl⟩
  case h_3 =>
    obtain ⟨run, rfl, hr⟩ := readsUpTo_named h
    exact ⟨'>', by decide, 'P' :: '<' :: run, rfl, hr⟩
  case h_4 =>
    obtain ⟨run, rfl, hr⟩ := readsUpTo_named h
    exact ⟨')', by decide, 'P' :: '=' :: run, rfl, hr⟩
  case h_5 => cases h
  case h_6 => cases h; exact ⟨'=', by decide, [], rfl, fun place after' => rfl⟩
  case h_7 => cases h; exact ⟨'!', by decide, [], rfl, fun place after' => rfl⟩
  case h_8 => cases h; exact ⟨'=', by decide, ['<'], rfl, fun place after' => rfl⟩
  case h_9 => cases h; exact ⟨'!', by decide, ['<'], rfl, fun place after' => rfl⟩
  case h_10 => cases h
  case h_11 =>
    obtain ⟨run, rfl, hr⟩ := readsUpTo_comment h
    exact ⟨')', by decide, '#' :: run, rfl, hr⟩
  case h_12 =>
    obtain ⟨run, rfl, hr⟩ := readsUpTo_named h
    exact ⟨')', by decide, '(' :: run, rfl, hr⟩
  case h_13 c rest _ _ _ _ _ _ _ _ _ _ _ =>
    split at h
    case isFalse => cases h
    case isTrue hc =>
      obtain ⟨stop, hs, run, he, hr⟩ := readsUpTo_additions h
      have hne : c ≠ stop := by
        rintro rfl
        rcases hs with rfl | rfl <;> exact absurd hc (by decide)
      obtain ⟨run', rfl⟩ : ∃ run', run = c :: run' := by
        cases run with
        | nil => exact absurd (List.cons.inj he).1 hne
        | cons d run' => exact ⟨run', by rw [(List.cons.inj he).1]⟩
      have hs' : IsMark stop := by
        rcases hs with rfl | rfl <;> exact by decide
      refine ⟨stop, hs', c :: run', he, fun place after' => ?_⟩
      rw [List.cons_append, extension_flags hc]
      exact hr place after'

/-- A header ends with a mark; a parenthesis without one opens a plain group. -/
theorem readsUpTo_read {text after : List Char} {lexeme : Lexeme}
    (h : read text = .ok (lexeme, after)) :
    (∃ stop, IsMark stop ∧ ReadsUpTo (fun _ => read) text stop lexeme after) ∨
      (text.head? ≠ some '?' ∧ lexeme = .opening .plain ∧ after = text) := by
  simp only [read] at h
  split at h
  case h_1 rest =>
    obtain ⟨stop, hs, run, rfl, hr⟩ := readsUpTo_extension h
    exact Or.inl ⟨stop, hs, '?' :: run, rfl, fun place after' => hr _ after'⟩
  case h_2 hn =>
    cases h
    refine Or.inr ⟨fun hq => ?_, rfl, rfl⟩
    cases text with
    | nil => cases hq
    | cons c rest => exact hn rest (by simpa using hq)

theorem read_plain {text : List Char} (h : text.head? ≠ some '?') :
    read text = .ok (.opening .plain, text) := by
  unfold read
  split
  case h_1 => exact absurd rfl h
  case h_2 => rfl

end GroupHeader

namespace Count

def inner (count : Count) : List Char :=
  count.low ++
    match count.high with
    | none => []
    | some digits => ',' :: digits

def written (count : Count) : List Char := '{' :: (count.inner ++ ['}'])

structure IsProper (count : Count) : Prop where
  low : ∀ d ∈ count.low, d.isDigit = true
  high : ∀ digits ∈ count.high, ∀ d ∈ digits, d.isDigit = true
  number : count.high = none → count.low ≠ []

theorem IsProper.inner {count : Count} (h : count.IsProper) :
    ∀ c ∈ count.inner, c.isDigit = true ∨ c = ',' := by
  rcases count with ⟨low, _ | digits⟩
  · intro c hc
    have hl : c ∈ low := by simpa [Count.inner] using hc
    exact Or.inl (h.low c hl)
  · intro c hc
    rcases List.mem_append.mp hc with hc | hc
    · exact Or.inl (h.low c hc)
    · rcases List.mem_cons.mp hc with rfl | hc
      · exact Or.inr rfl
      · exact Or.inl (h.high digits rfl c hc)

theorem written_append (count : Count) (rest : List Char) :
    count.written ++ rest = '{' :: (count.inner ++ '}' :: rest) := by
  rw [written, List.cons_append, List.append_assoc, List.singleton_append]

theorem IsProper.isAscii {count : Count} (h : count.IsProper) :
    ∀ c ∈ count.written, c.val < 128 := by
  intro c hc
  have hcases : c = '{' ∨ (c.isDigit = true ∨ c = ',') ∨ c = '}' := by
    simp only [written, List.mem_cons, List.mem_append, List.not_mem_nil, or_false] at hc
    exact hc.imp_right (Or.imp_left (h.inner c))
  rcases hcases with rfl | (hd | rfl) | rfl
  · decide
  · simp only [Char.isDigit, Bool.and_eq_true, decide_eq_true_eq] at hd
    exact Nat.lt_of_le_of_lt hd.2 (by decide)
  · decide
  · decide

/-- Taking a character for each byte of a count leaves what follows it. -/
theorem drop_written {count : Count} (h : count.IsProper) (rest : List Char) :
    (count.written ++ rest).drop (byteLength count.written) = rest := by
  rw [byteLength_of_isAscii h.isAscii, List.drop_left]

theorem numbers_inner {count : Count} (h : count.IsProper) (rest : List Char) :
    numbers (count.inner ++ '}' :: rest) = (count, '}' :: rest) := by
  rcases count with ⟨low, _ | digits⟩
  · obtain ⟨ht, hd⟩ := span_append h.low (by decide : Char.isDigit '}' = false) rest
    simp [inner, numbers, ht, hd]
  · obtain ⟨ht, hd⟩ := span_append h.low (by decide : Char.isDigit ',' = false)
      (digits ++ '}' :: rest)
    obtain ⟨ht', hd'⟩ := span_append (h.high digits rfl) (by decide : Char.isDigit '}' = false) rest
    simp [inner, numbers, ht, hd, ht', hd']

/-- Nothing but digits and one comma is split off. -/
theorem eq_of_numbers {text rest : List Char} {count : Count} (h : numbers text = (count, rest)) :
    text = count.inner ++ rest ∧ (∀ d ∈ count.low, d.isDigit = true) ∧
      ∀ digits ∈ count.high, ∀ d ∈ digits, d.isDigit = true := by
  have hdigits (t : List Char) : ∀ d ∈ t.takeWhile Char.isDigit, d.isDigit = true :=
    List.all_eq_true.mp List.all_takeWhile
  have hsplit := List.takeWhile_append_dropWhile (p := Char.isDigit) (l := text)
  simp only [numbers] at h
  split at h
  case h_1 after hd =>
    cases h
    refine ⟨?_, hdigits text, fun _ hm => Option.some.inj hm ▸ hdigits after⟩
    show text = (text.takeWhile Char.isDigit ++ ',' :: after.takeWhile Char.isDigit) ++
      after.dropWhile Char.isDigit
    rw [List.append_assoc, List.cons_append, List.takeWhile_append_dropWhile, ← hd, hsplit]
  case h_2 =>
    cases h
    refine ⟨?_, hdigits text, fun _ hm => absurd hm.symm (Option.some_ne_none _)⟩
    simp [inner]

theorem scan?_written {count : Count} (h : count.IsProper) (rest : List Char) :
    scan? (count.written ++ rest) = some (byteLength count.written, count) := by
  have hn : count ≠ ⟨[], none⟩ := by
    rintro rfl
    exact h.number rfl rfl
  have hb : byteLength ('{' :: (count.inner ++ '}' :: rest)) - byteLength ('}' :: rest) + 1 =
      byteLength count.written := by
    rw [← List.cons_append, byteLength_append, Nat.add_sub_cancel, written, ← List.cons_append,
      byteLength_append]
    rfl
  simp only [written_append, scan?, numbers_inner h, List.head?_cons, ne_eq, not_true_eq_false, hn, or_self,
    if_false, hb]

/-- A count is found at the start of a text exactly if the text starts with one as it is
written, and all of that is taken. -/
theorem scan?_eq_some_iff {text : List Char} {n : Nat} {count : Count} :
    scan? text = some (n, count) ↔
      count.IsProper ∧ n = byteLength count.written ∧ count.written <+: text := by
  constructor
  · intro h
    have hs := h
    unfold scan? at h
    split at h
    case h_2 => cases h
    case h_1 text =>
      dsimp only at h
      split at h
      case isTrue => cases h
      case isFalse hn =>
        obtain ⟨hbrace, hne⟩ := not_or.mp hn
        obtain ⟨-, hc⟩ := Prod.mk.inj (Option.some.inj h)
        obtain ⟨after, hr⟩ := List.head?_eq_some_iff.mp (Decidable.not_not.mp hbrace)
        obtain ⟨ht, hl, hh⟩ := eq_of_numbers (Prod.ext hc hr : numbers text = (count, '}' :: after))
        have hp : count.IsProper := by
          refine ⟨hl, hh, fun high low => hne (hc.trans ?_)⟩
          cases count
          cases high
          cases low
          rfl
        have hw : '{' :: text = count.written ++ after := by rw [ht, written_append]
        rw [hw, scan?_written hp after] at hs
        cases hs
        exact ⟨hp, rfl, after, hw.symm⟩
  · rintro ⟨h, rfl, rest, rfl⟩
    exact scan?_written h rest

/-- A count is its digits and commas up to the closing brace. -/
theorem scan?_append {text : List Char} {n : Nat} {count : Count}
    (h : scan? ('{' :: text) = some (n, count)) :
    ∃ run after, text = run ++ '}' :: after ∧ (∀ c ∈ run, c.isDigit = true ∨ c = ',') ∧
      ∀ after', scan? ('{' :: (run ++ '}' :: after')) = some (n, count) := by
  obtain ⟨hp, rfl, after, ht⟩ := scan?_eq_some_iff.mp h
  refine ⟨count.inner, after, ?_, hp.inner, fun after' => ?_⟩
  · rw [written_append] at ht
    exact (List.cons.inj ht).2.symm
  · rw [← written_append]
    exact scan?_written hp after'

theorem isMark_of_count {c : Char} (h : c.isDigit = true ∨ c = ',') : IsMark c := by
  rcases h with h | rfl
  · exact isMark_of_isDigit h
  · decide

end Count

namespace Lexeme

/-- A count is a quantifier with its bounds; where it has none, it is a fault at its brace. -/
theorem brace_written {count : Count} (hp : count.IsProper) (rest : List Char) :
    brace (count.inner ++ '}' :: rest) =
      match count.bounds? with
      | some (min, max) => .ok (quantified min max rest)
      | none => .error ⟨.repeatBounds, count.written ++ rest⟩ := by
  have hs := Count.scan?_written hp rest
  have hd := Count.drop_written hp rest
  rw [Count.written_append] at hs hd
  cases hb : count.bounds? with
  | none => simp only [brace, hs, hb, Count.written_append]
  | some bounds => simp only [brace, hs, hb, hd]

/-- A brace is read as a literal, or with the count that it starts. -/
theorem cases_of_brace {text after : List Char} {lexeme : Lexeme}
    (h : brace text = .ok (lexeme, after)) :
    (Count.scan? ('{' :: text) = none ∧ lexeme = .item (.literal '{') ∧ after = text) ∨
      ∃ (count : Count) (min : UInt32) (max : Option UInt32) (rest : List Char),
        count.IsProper ∧ text = count.inner ++ '}' :: rest ∧
        count.bounds? = some (min, max) ∧ quantified min max rest = (lexeme, after) := by
  cases hs : Count.scan? ('{' :: text) with
  | none =>
    simp only [brace, hs] at h
    cases h
    exact Or.inl ⟨rfl, rfl, rfl⟩
  | some found =>
    obtain ⟨hp, -, rest, hw⟩ := Count.scan?_eq_some_iff.mp hs
    rw [Count.written_append] at hw
    obtain ⟨-, rfl⟩ := List.cons.inj hw
    rw [brace_written hp] at h
    split at h
    case h_1 min max hb => exact Or.inr ⟨found.2, min, max, rest, hp, rfl, hb, Except.ok.inj h⟩
    case h_2 => cases h

end Lexeme

end RegexTypeset
