import RegexTypeset.EdgeSpaces
import RegexTypeset.Proofs.BlockedReading

/-! # Text that makes no item

Comments and flag directives are read without leaving an item. So a text is blocked, in
a reading that is not verbose and does not become so, if it consists of these up to a
quantifier.
-/
namespace RegexTypeset

namespace GroupHeader

variable {opened text after letters note : List Char} {added removed found : Flags}
  {lexeme : Lexeme}

theorem exists_kind_of_removals (h : removals opened added removed text = .ok (lexeme, after)) :
    ∃ kind, lexeme = .opening kind := by
  fun_induction removals opened added removed text with
  | case1 => cases h
  | case2 => cases h; exact ⟨_, rfl⟩
  | case3 _ _ _ _ _ _ ih => exact ih h
  | case4 => cases h

theorem cases_of_additions (h : additions opened added text = .ok (lexeme, after)) :
    (∃ kind, lexeme = .opening kind) ∨ (∃ found, lexeme = .flags found) ∧
      ∃ letters, (∀ c ∈ letters, (Flags.ofLetter? c).isSome) ∧ text = letters ++ ')' :: after := by
  fun_induction additions opened added text with
  | case1 => cases h
  | case2 => cases h; exact Or.inr ⟨⟨_, rfl⟩, [], by simp, rfl⟩
  | case3 => cases h; exact Or.inl ⟨_, rfl⟩
  | case4 => exact Or.inl (exists_kind_of_removals h)
  | case5 added c rest _ _ _ flag hf ih =>
    rcases ih h with hk | ⟨hl, letters, hs, rfl⟩
    · exact Or.inl hk
    · refine Or.inr ⟨hl, c :: letters, ?_, rfl⟩
      intro d hd
      rcases List.mem_cons.mp hd with rfl | hd
      · simp [hf]
      · exact hs d hd
  | case6 => cases h

/-- A header opens a group, is a reference, a comment, or a directive. -/
theorem cases_of_read (h : read text = .ok (lexeme, after)) :
    (∃ kind, lexeme = .opening kind) ∨ (∃ token, lexeme = .item token) ∨
      (lexeme = .filler ∧ ∃ note, ')' ∉ note ∧ text = '?' :: '#' :: (note ++ ')' :: after)) ∨
      (∃ found, lexeme = .flags found) ∧ ∃ letters, letters ≠ [] ∧
        (∀ c ∈ letters, (Flags.ofLetter? c).isSome) ∧ text = '?' :: (letters ++ ')' :: after) := by
  simp only [read] at h
  split at h
  case h_2 => cases h; exact Or.inl ⟨_, rfl⟩
  case h_1 rest =>
    simp only [extension] at h
    split at h
    case h_3 => obtain ⟨name, -, rfl⟩ := exists_name_of_named h; exact Or.inl ⟨_, rfl⟩
    case h_4 => obtain ⟨name, -, rfl⟩ := exists_name_of_named h; exact Or.inr (Or.inl ⟨_, rfl⟩)
    case h_12 => obtain ⟨name, -, rfl⟩ := exists_name_of_named h; exact Or.inl ⟨_, rfl⟩
    case h_11 rest =>
      simp only [comment] at h
      split at h
      case h_1 => cases h
      case h_2 stop rest' hd =>
        cases h
        obtain ⟨note, rfl, -, hn, hs⟩ := span_split hd
        obtain rfl : stop = ')' := by simpa using hs
        exact Or.inr (Or.inr (Or.inl ⟨rfl, note, not_mem_iff_run.mpr hn, rfl⟩))
    case h_13 c rest _ _ _ _ _ _ _ _ _ _ _ =>
      split at h
      case isFalse => cases h
      case isTrue hc =>
        rcases cases_of_additions h with hk | ⟨hl, letters, hs, he⟩
        · exact Or.inl hk
        · refine Or.inr (Or.inr (Or.inr ⟨hl, letters, ?_, hs, by rw [he]⟩))
          rintro rfl
          obtain rfl : c = ')' := (List.cons.inj he).1
          exact absurd hc (by decide)
    all_goals first | (cases h; exact Or.inl ⟨_, rfl⟩) | cases h

theorem read_comment (h : ')' ∉ note) (after : List Char) :
    read ('?' :: '#' :: (note ++ ')' :: after)) = .ok (.filler, after) := by
  obtain ⟨-, hd⟩ := span_append (not_mem_iff_run.mp h)
    (by decide : decide (')' ≠ ')') = false) after
  show comment ('(' :: _) (note ++ ')' :: after) = _
  simp only [comment, hd]

theorem additions_letters (h : ∀ c ∈ letters, (Flags.ofLetter? c).isSome) (added : Flags) :
    ∃ found, ∀ opened after,
      additions opened added (letters ++ ')' :: after) = .ok (.flags found, after) := by
  induction letters generalizing added with
  | nil => exact ⟨added, fun _ _ => rfl⟩
  | cons c letters ih =>
    obtain ⟨flag, hf⟩ := Option.isSome_iff_exists.mp (h c List.mem_cons_self)
    obtain ⟨found, hl⟩ := ih (fun d hd => h d (List.mem_cons_of_mem _ hd)) (added ∪ flag)
    refine ⟨found, fun opened after => ?_⟩
    rw [List.cons_append, additions_letter hf]
    exact hl opened after

theorem read_directive (hn : letters ≠ []) (h : ∀ c ∈ letters, (Flags.ofLetter? c).isSome) :
    ∃ found, ∀ after, read ('?' :: (letters ++ ')' :: after)) = .ok (.flags found, after) := by
  obtain ⟨found, hf⟩ := additions_letters h ∅
  obtain ⟨c, letters, rfl⟩ := List.exists_cons_of_ne_nil hn
  refine ⟨found, fun after => ?_⟩
  have hc : c = '-' ∨ (Flags.ofLetter? c).isSome := Or.inr (h c List.mem_cons_self)
  exact (extension_flags hc _ _).trans (hf _ after)

end GroupHeader

inductive Unseen : List Char → Prop
  | nil : Unseen []
  | comment {note rest : List Char} (h : ')' ∉ note) (hr : Unseen rest) :
      Unseen ('(' :: '?' :: '#' :: (note ++ ')' :: rest))
  | directive {letters rest : List Char} (hn : letters ≠ [])
      (h : ∀ c ∈ letters, (Flags.ofLetter? c).isSome) (hr : Unseen rest) :
      Unseen ('(' :: '?' :: (letters ++ ')' :: rest))

theorem Unseen.head {text : List Char} (h : Unseen text) (hn : text ≠ []) :
    ∃ rest, text = '(' :: rest := by
  cases h with
  | nil => exact absurd rfl hn
  | comment => exact ⟨_, rfl⟩
  | directive => exact ⟨_, rfl⟩

open EdgeSpaces (startsWithQuantifier)

namespace Lexeme

variable {c : Char} {rest after : List Char} {lexeme : Lexeme} {q : Quantifier}

theorem sign_of_startsWithQuantifier (h : startsWithQuantifier (c :: rest) = true) :
    c ∈ ['*', '+', '?', '{'] := by
  unfold startsWithQuantifier at h
  split at h
  case h_1 he => cases he; decide
  case h_2 he => cases he; decide
  case h_3 he => cases he; decide
  case h_4 =>
    unfold Count.scan? at h
    split at h
    case h_1 he => cases he; decide
    case h_2 => cases h

theorem comment_of_solid (h : solid c rest = .ok (.filler, after)) :
    c = '(' ∧ ∃ note, ')' ∉ note ∧ rest = '?' :: '#' :: (note ++ ')' :: after) := by
  rcases cases_of_solid h with rfl | ⟨-, q, hq⟩ | ⟨token, ht⟩ | hb | ⟨-, hb⟩
  · refine ⟨rfl, ?_⟩
    rcases GroupHeader.cases_of_read h with ⟨kind, hk⟩ | ⟨token, ht⟩ | ⟨-, hc⟩ | ⟨⟨found, hf⟩, -⟩
    · contradiction
    · contradiction
    · exact hc
    · contradiction
  all_goals contradiction

theorem directive_of_solid {added : Flags} (h : solid c rest = .ok (.flags added, after)) :
    c = '(' ∧ ∃ letters, letters ≠ [] ∧ (∀ c ∈ letters, (Flags.ofLetter? c).isSome) ∧
      rest = '?' :: (letters ++ ')' :: after) := by
  rcases cases_of_solid h with rfl | ⟨-, q, hq⟩ | ⟨token, ht⟩ | hb | ⟨-, hb⟩
  · refine ⟨rfl, ?_⟩
    rcases GroupHeader.cases_of_read h with ⟨kind, hk⟩ | ⟨token, ht⟩ | ⟨hf, -⟩ | ⟨-, hd⟩
    · contradiction
    · contradiction
    · contradiction
    · exact hd
  all_goals contradiction

/-- What starts with a quantifier is read as one. -/
theorem quantifier_of_solid (hs : startsWithQuantifier (c :: rest) = true)
    (h : solid c rest = .ok (lexeme, after)) : ∃ q, lexeme = .quantifier q := by
  have hc := sign_of_startsWithQuantifier hs
  simp only [List.mem_cons, List.not_mem_nil, or_false] at hc
  rcases hc with rfl | rfl | rfl | rfl
  · exact exists_of_quantified (Except.ok.inj h)
  · exact exists_of_quantified (Except.ok.inj h)
  · exact exists_of_quantified (Except.ok.inj h)
  · have hb : brace rest = .ok (lexeme, after) := h
    rcases cases_of_brace hb with ⟨hn, -, -⟩ | ⟨count, min, max, rest', -, -, -, hq⟩
    · have hcount : (Count.scan? ('{' :: rest)).isSome = true := hs
      rw [hn] at hcount
      cases hcount
    · exact exists_of_quantified hq

theorem startsWithQuantifier_of_solid (h : solid c rest = .ok (.quantifier q, after)) :
    startsWithQuantifier (c :: rest) = true := by
  rcases cases_of_solid h with rfl | ⟨hc, -⟩ | ⟨token, ht⟩ | hb | ⟨-, hb⟩
  · have hr : GroupHeader.read rest = .ok (.quantifier q, after) := h
    rcases GroupHeader.cases_of_read hr with ⟨kind, hk⟩ | ⟨token, ht⟩ | ⟨hf, -⟩ | ⟨⟨found, hf⟩, -⟩
    all_goals contradiction
  · simp only [List.mem_cons, List.not_mem_nil, or_false] at hc
    rcases hc with rfl | rfl | rfl | rfl
    · rfl
    · rfl
    · rfl
    · have hb : brace rest = .ok (.quantifier q, after) := h
      rcases cases_of_brace hb with ⟨-, he, -⟩ | ⟨count, min, max, rest', hp, rfl, -, -⟩
      · cases he
      · have hcount := Count.scan?_written hp rest'
        rw [Count.written_append] at hcount
        exact congrArg Option.isSome hcount
  all_goals contradiction

end Lexeme

theorem startsWithQuantifier_append {text : List Char} (h : startsWithQuantifier text = true)
    (more : List Char) : startsWithQuantifier (text ++ more) = true := by
  cases text with
  | nil => cases h
  | cons c rest =>
    have hc := Lexeme.sign_of_startsWithQuantifier h
    simp only [List.mem_cons, List.not_mem_nil, or_false] at hc
    rcases hc with rfl | rfl | rfl | rfl
    · rfl
    · rfl
    · rfl
    · obtain ⟨⟨n, count⟩, hcount⟩ := Option.isSome_iff_exists.mp h
      obtain ⟨run, rest', rfl, -, hr⟩ := Count.scan?_append hcount
      have ha := hr (rest' ++ more)
      show (Count.scan? ('{' :: ((run ++ '}' :: rest') ++ more))).isSome = true
      rw [List.append_assoc, List.cons_append, ha]
      rfl

namespace Nesting

variable {n m : Nesting} {c : Char} {rest rest' : List Char} {lexeme : Lexeme}

/-- A comment or a directive is read before its rest, whatever that is. So the spaces behind are
detached from the rest. -/
theorem exists_push_detached {header after spaces : List Char}
    (hl : ∀ after, Lexeme.read n.isVerbose '(' (header ++ ')' :: after) = .ok (lexeme, after))
    (hd : Detached ('(' :: (header ++ ')' :: after)) spaces)
    (hm : n.read ('(' :: (header ++ ')' :: after) ++ spaces) = .ok m) :
    Detached after spaces ∧
      ∃ place n', n.push place lexeme = .ok n' ∧ n'.read (after ++ spaces) = .ok m := by
  constructor
  · have he : Ends '(' (header ++ [')']) := .mark (by decide)
    exact he.detached (by simpa using hd)
  · have hm' : n.read ('(' :: (header ++ ')' :: (after ++ spaces))) = .ok m := by
      simpa using hm
    exact ⟨_, exists_push (hl _) hm'⟩

/-- In a reading that is not verbose, the first lexeme of a text is that of the text with spaces
behind it. -/
theorem exists_push_spaces {k : Nat} (h : Lexeme.read false c rest = .ok (lexeme, rest'))
    (hn : n.isVerbose = false) (hm : n.read (c :: rest ++ List.replicate k ' ') = .ok m) :
    ∃ n', n.push (c :: (rest ++ List.replicate k ' ')) lexeme = .ok n' ∧
      n'.read (rest' ++ List.replicate k ' ') = .ok m := by
  rcases Lexeme.read_append h (inert_spaces k) with ha | ⟨ho, -⟩
  · exact exists_push (hn.symm ▸ ha) hm
  · exact absurd ho.verbose (by decide)

end Nesting

/-- Blocked text is unseen up to a quantifier, or some directive in it makes the reading
verbose. -/
theorem unseen_of_blocked {verbose : Bool} {text : List Char} (h : Blocked verbose text)
    (hv : verbose = false) (k : Nat) :
    (∃ groups rest, text = groups ++ rest ∧ Unseen groups ∧ startsWithQuantifier rest = true) ∨
      ∀ n m : Nesting, n.isVerbose = false → n.read (text ++ List.replicate k ' ') = .ok m →
        m.global.has .verbose = true := by
  induction h with
  | @quantifier verbose c rest rest' q h =>
    subst hv
    exact Or.inl ⟨[], c :: rest, rfl, .nil, Lexeme.startsWithQuantifier_of_solid h⟩
  | @filler verbose c rest rest' h _ ih =>
    subst hv
    obtain ⟨rfl, note, hn, rfl⟩ := Lexeme.comment_of_solid h
    rcases ih rfl with ⟨groups, rest, rfl, hu, hq⟩ | hr
    · exact Or.inl ⟨'(' :: '?' :: '#' :: (note ++ ')' :: groups), rest, by simp, .comment hn hu, hq⟩
    · right
      intro n m hv hm
      obtain ⟨n', hp, hr'⟩ := Nesting.exists_push_spaces h hv hm
      cases hp
      exact hr n m hv hr'
  | @flags verbose c rest rest' added h _ ih =>
    subst hv
    obtain ⟨rfl, letters, hn, hl, rfl⟩ := Lexeme.directive_of_solid h
    by_cases ha : added.has .verbose = true
    · right
      intro n m hv hm
      obtain ⟨n', hp, hr'⟩ := Nesting.exists_push_spaces h hv hm
      cases hp
      apply Nesting.global_verbose_of_read hr'
      simp [Nesting.addFlags, ha]
    · rw [Bool.not_eq_true] at ha
      rcases ih ha with ⟨groups, rest, rfl, hu, hq⟩ | hr
      · exact Or.inl ⟨'(' :: '?' :: (letters ++ ')' :: groups), rest, by simp, .directive hn hl hu, hq⟩
      · right
        intro n m hv hm
        obtain ⟨n', hp, hr'⟩ := Nesting.exists_push_spaces h hv hm
        cases hp
        have hv' : (n.addFlags added).isVerbose = false := by
          rw [Nesting.isVerbose_addFlags, hv, ha]
          rfl
        exact hr _ m hv' hr'

theorem not_startsWithQuantifier_spaces (k : Nat) :
    startsWithQuantifier (List.replicate k ' ') = false := by
  cases k <;> rfl

/-- If a quantifier stands behind unseen text and both are read, behind something else, then
they are blocked. -/
theorem blocked_of_unseen {groups : List Char} (h : Unseen groups) {rest : List Char} {k : Nat}
    (hq : startsWithQuantifier (rest ++ List.replicate k ' ') = true)
    (hd : Detached (groups ++ rest) (List.replicate k ' ')) {n m : Nesting}
    (hm : n.read (groups ++ rest ++ List.replicate k ' ') = .ok m) :
    Blocked n.isVerbose (groups ++ rest) := by
  have hspace : ∀ d ∈ List.replicate k ' ', d = ' ' := fun d => List.eq_of_mem_replicate
  have paren : '(' ∈ ['(', '*', '+', '?', '{'] := List.mem_cons_self
  induction h generalizing n with
  | nil =>
    cases rest with
    | nil =>
      rw [List.nil_append, not_startsWithQuantifier_spaces] at hq
      cases hq
    | cons c rest =>
      obtain ⟨lexeme, n', rest', hs, -⟩ := Nesting.exists_step hm
      have hread := hs.reads
      rw [Lexeme.read_sign (List.mem_cons_of_mem _ (Lexeme.sign_of_startsWithQuantifier hq))] at hread
      obtain ⟨q, rfl⟩ := Lexeme.quantifier_of_solid hq hread
      obtain ⟨after, hl, -, -⟩ := Lexeme.read_of_append hs.reads hspace hd
      exact .quantifier hl
  | @comment note groups hn hu ih =>
    have hread (after : List Char) : Lexeme.read n.isVerbose '(' ('?' :: '#' :: (note ++ ')' :: after)) =
        .ok (.filler, after) := by
      rw [Lexeme.read_sign paren]
      exact GroupHeader.read_comment hn after
    have ht : '(' :: '?' :: '#' :: (note ++ ')' :: groups) ++ rest =
        '(' :: (('?' :: '#' :: note) ++ ')' :: (groups ++ rest)) := by simp
    rw [ht] at hd hm ⊢
    obtain ⟨hd', place, n', hp, hr⟩ := Nesting.exists_push_detached hread hd hm
    cases hp
    exact .filler (hread _) (ih hd' hr)
  | @directive letters groups hn hl hu ih =>
    obtain ⟨found, hf⟩ := GroupHeader.read_directive hn hl
    have hread (after : List Char) : Lexeme.read n.isVerbose '(' ('?' :: (letters ++ ')' :: after)) =
        .ok (.flags found, after) := by
      rw [Lexeme.read_sign paren]
      exact hf after
    have ht : '(' :: '?' :: (letters ++ ')' :: groups) ++ rest =
        '(' :: (('?' :: letters) ++ ')' :: (groups ++ rest)) := by simp
    rw [ht] at hd hm ⊢
    obtain ⟨hd', place, n', hp, hr⟩ := Nesting.exists_push_detached hread hd hm
    cases hp
    have hv := Nesting.isVerbose_addFlags n found
    exact .flags (hread _) (hv ▸ ih hd' hr)

end RegexTypeset
