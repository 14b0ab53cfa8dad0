import RegexTypeset.Proofs.TreeEquality
import RegexTypeset.Proofs.UnseenText

/-! # Where errors point

An error points into the text that was read, to a place where its cause can be seen: the
parenthesis that is not closed, the backslash of a bad escape, the quantifier that finds
nothing. Each reader has its faults at such places of the text that it is given, and a
group that is still open keeps the place of its parenthesis.
-/
namespace RegexTypeset

/-- What is to be seen where an error with a given cause points, in the text in front of the
place and the text from there on. -/
def Cause.PointsAt (before place : List Char) : Cause → Prop
  | nothingToRepeat | multipleRepeat => ∃ c ∈ ['*', '+', '?', '{'], place.head? = some c
  | repeatBounds => (Count.scan? place).isSome
  | unterminatedGroup | tooDeep => place.head? = some '('
  | unbalancedParenthesis => place.head? = some ')'
  | unterminatedClass => place.head? = some '['
  | badRange lo _ => place.head? = some lo ∨ place.head? = some '\\'
  | badEscape _ => place.head? = some '\\'
  | badFlag c => before.getLast? = some c
  | badGroupName name => ∃ stop ∈ ['>', ')'], name.toList ++ [stop] <+: place
  | unknownExtension c => place.head? = some '(' ∨ place.head? = some c ∨ before.getLast? = some c
  | unexpectedEnd => True

def Fault.FoundIn (text : List Char) (fault : Fault) : Prop :=
  ∃ before, text = before ++ fault.place ∧ fault.cause.PointsAt before fault.place

namespace Fault.FoundIn

variable {fault : Fault} {text whole : List Char} {cause : Cause} {place : List Char}

/-- A longer text in front hides nothing. -/
theorem of_suffix (h : fault.FoundIn text) (hs : text <:+ whole) : fault.FoundIn whole := by
  obtain ⟨before, rfl, hp⟩ := h
  obtain ⟨front, rfl⟩ := hs
  have hlast {c : Char} (h : before.getLast? = some c) : (front ++ before).getLast? = some c := by
    rw [List.getLast?_append, h, Option.some_or]
  refine ⟨front ++ before, by rw [List.append_assoc], ?_⟩
  cases hc : fault.cause <;> rw [hc] at hp <;> try exact hp
  case badFlag => exact hlast hp
  case unknownExtension => exact hp.imp_right (Or.imp_right hlast)

/-- What can be seen from the place on is found there. -/
theorem of_place (h : ∀ before, cause.PointsAt before place) (hs : place <:+ whole) :
    (Fault.mk cause place).FoundIn whole := by
  obtain ⟨before, rfl⟩ := hs
  exact ⟨before, rfl, h before⟩

end Fault.FoundIn

variable {fault : Fault} {text rest opened whole : List Char}

theorem eq_error_of_map {α β : Type} {read : Except Fault α} {f : α → β}
    (h : read.map f = .error fault) : read = .error fault := by
  cases read with
  | error fault => exact congrArg _ (Except.error.inj h)
  | ok => cases h

namespace Escape

theorem foundIn_bad (written text : List Char) : (bad written text).FoundIn ('\\' :: text) :=
  ⟨[], rfl, rfl⟩

theorem foundIn_octal {first : Char} (h : octal text first rest = .error fault) :
    fault.FoundIn ('\\' :: text) := by
  simp only [octal] at h
  split at h <;> cases h
  exact foundIn_bad _ text

theorem foundIn_hex {marker : Char} {size : Nat} (h : hex text marker size rest = .error fault) :
    fault.FoundIn ('\\' :: text) := by
  simp only [hex] at h
  split at h <;> cases h
  exact foundIn_bad _ text

theorem foundIn_simple {c : Char} (h : simple text c rest = .error fault) :
    fault.FoundIn ('\\' :: text) := by
  simp only [simple] at h
  split at h
  case h_1 => cases h
  case h_2 => exact foundIn_hex h
  case h_3 =>
    split at h <;> cases h
    exact foundIn_bad _ text

theorem foundIn_numbered {first : Char} (h : numbered text first rest = .error fault) :
    fault.FoundIn ('\\' :: text) := by
  simp only [numbered] at h
  repeat' split at h
  all_goals cases h
  exact foundIn_bad _ text

theorem foundIn_item (h : item text = .error fault) : fault.FoundIn ('\\' :: text) := by
  cases text with
  | nil =>
    cases h
    exact foundIn_bad _ _
  | cons c rest =>
    simp only [item] at h
    repeat' split at h
    · cases h
    · cases h
    · exact foundIn_octal (eq_error_of_map h)
    · exact foundIn_numbered h
    · exact foundIn_simple (eq_error_of_map h)

theorem foundIn_member (h : member text = .error fault) : fault.FoundIn ('\\' :: text) := by
  cases text with
  | nil =>
    cases h
    exact foundIn_bad _ _
  | cons c rest =>
    simp only [member] at h
    repeat' split at h
    · cases h
    · cases h
    · exact foundIn_octal (eq_error_of_map h)
    · exact foundIn_simple (eq_error_of_map h)

end Escape

namespace CharClass

theorem foundIn_single {c : Char} (h : single c rest = .error fault) : fault.FoundIn (c :: rest) := by
  simp only [single] at h
  split at h
  case isTrue hc =>
    subst hc
    exact Escape.foundIn_member h
  case isFalse => cases h

/-- What starts without a backslash is the character itself. -/
theorem start_of_single {c : Char} {token : Token} {after : List Char}
    (h : single c rest = .ok (token, after)) : c = '\\' ∨ token = .literal c := by
  simp only [single] at h
  split at h
  case isTrue hc => exact .inl hc
  case isFalse =>
    cases h
    exact .inr rfl

theorem foundIn_range {lo c : Char} (ht : text.head? = some lo ∨ text.head? = some '\\')
    (hs : c :: rest <:+ text) (h : range text lo c rest = .error fault) : fault.FoundIn text := by
  simp only [range] at h
  split at h
  case h_1 hl =>
    cases h
    exact (foundIn_single hl).of_suffix hs
  case h_2 =>
    split at h <;> cases h
    exact .of_place (fun _ => ht) List.suffix_rfl
  case h_3 read hn hl =>
    cases h
    rcases start_of_single hl with rfl | he
    · exact .of_place (fun _ => .inr rfl) hs
    · exact (hn c read.2 (Prod.ext he rfl)).elim

theorem foundIn_member {c : Char} (h : member c rest = .error fault) : fault.FoundIn (c :: rest) := by
  simp only [member] at h
  split at h
  case h_1 hl =>
    cases h
    exact foundIn_single hl
  case h_2 lo d more hl =>
    split at h
    case isTrue => cases h
    case isFalse =>
      have hs : d :: more <:+ c :: rest :=
        (List.suffix_cons '-' _).trans ((suffix_of_single hl).trans (List.suffix_cons c rest))
      refine foundIn_range ?_ hs h
      rcases start_of_single hl with rfl | ht
      · exact .inr rfl
      · cases ht
        exact .inl rfl
  case h_3 => cases h

/-- Faults of a class point at a member or at the bracket that opens it. -/
theorem foundIn_members {first : Bool} {seen : List Token} (ho : opened.head? = some '[')
    (hs : text <:+ opened) (h : members opened first seen text = .error fault) :
    fault.FoundIn opened := by
  fun_induction members opened first seen text with
  | case1 =>
    cases h
    exact .of_place (fun _ => ho) List.suffix_rfl
  | case2 => cases h
  | case3 first seen c rest _ fault' hm =>
    cases h
    exact (foundIn_member hm).of_suffix hs
  | case4 first seen c rest _ token rest' hm ih =>
    exact ih ((suffix_of_member hm).trans ((List.suffix_cons c rest).trans hs)) h

theorem foundIn_read (h : read text = .error fault) : fault.FoundIn ('[' :: text) := by
  simp only [read] at h
  split at h
  case h_1 rest =>
    exact foundIn_members rfl ⟨['[', '^'], rfl⟩ (eq_error_of_map h)
  case h_2 => exact foundIn_members rfl (List.suffix_cons '[' text) (eq_error_of_map h)

end CharClass

/-- A name that is refused stands at the place, up to what ends it. -/
theorem GroupName.foundIn_read {terminator : Char} (ht : terminator ∈ ['>', ')'])
    (h : read terminator text = .error fault) : fault.FoundIn text := by
  simp only [read] at h
  split at h
  case h_1 =>
    cases h
    exact .of_place (fun _ => trivial) List.suffix_rfl
  case h_2 stop rest hs =>
    split at h
    case isTrue => cases h
    case isFalse =>
      cases h
      refine .of_place (fun _ => ⟨terminator, ht, rest, ?_⟩) List.suffix_rfl
      obtain rfl : stop = terminator := by
        have hn := List.head?_dropWhile_not (· ≠ terminator) text
        rw [hs] at hn
        simpa using hn
      rw [String.toList_ofList, List.append_assoc, List.singleton_append, ← hs,
        List.takeWhile_append_dropWhile]

namespace GroupHeader

theorem foundIn_removals {added removed : Flags} (hs : text <:+ opened)
    (h : removals opened added removed text = .error fault) : fault.FoundIn opened := by
  fun_induction removals opened added removed text with
  | case1 =>
    cases h
    exact .of_place (fun _ => trivial) List.suffix_rfl
  | case2 => cases h
  | case3 removed c rest _ flag hf ih => exact ih ((List.suffix_cons c rest).trans hs) h
  | case4 removed c rest _ hf =>
    cases h
    exact Fault.FoundIn.of_suffix ⟨[c], rfl, rfl⟩ hs

theorem foundIn_additions {added : Flags} (hs : text <:+ opened)
    (h : additions opened added text = .error fault) : fault.FoundIn opened := by
  fun_induction additions opened added text with
  | case1 =>
    cases h
    exact .of_place (fun _ => trivial) List.suffix_rfl
  | case2 => cases h
  | case3 => cases h
  | case4 added rest => exact foundIn_removals ((List.suffix_cons '-' rest).trans hs) h
  | case5 added c rest _ _ _ flag hf ih => exact ih ((List.suffix_cons c rest).trans hs) h
  | case6 added c rest _ _ _ hf =>
    cases h
    exact Fault.FoundIn.of_suffix ⟨[c], rfl, rfl⟩ hs

theorem foundIn_comment (ho : opened.head? = some '(')
    (h : comment opened text = .error fault) : fault.FoundIn opened := by
  simp only [comment] at h
  split at h <;> cases h
  exact .of_place (fun _ => ho) List.suffix_rfl

theorem foundIn_named {terminator : Char} {lexeme : String → Lexeme}
    (ht : terminator ∈ ['>', ')']) (hs : text <:+ opened)
    (h : named terminator lexeme text = .error fault) : fault.FoundIn opened :=
  (GroupName.foundIn_read ht (eq_error_of_map h)).of_suffix hs

theorem foundIn_extension (ho : opened.head? = some '(') (hs : text <:+ opened)
    (h : extension opened text = .error fault) : fault.FoundIn opened := by
  simp only [extension] at h
  split at h
  case h_1 =>
    cases h
    exact .of_place (fun _ => trivial) hs
  case h_3 rest => exact foundIn_named (by decide) (List.IsSuffix.trans ⟨['P', '<'], rfl⟩ hs) h
  case h_4 rest => exact foundIn_named (by decide) (List.IsSuffix.trans ⟨['P', '='], rfl⟩ hs) h
  case h_5 rest _ _ =>
    cases h
    exact Fault.FoundIn.of_suffix ⟨['P'], rfl, .inr (.inr rfl)⟩ hs
  case h_10 =>
    cases h
    exact .of_place (fun _ => .inl ho) List.suffix_rfl
  case h_11 rest => exact foundIn_comment ho h
  case h_12 rest => exact foundIn_named (by decide) ((List.suffix_cons '(' rest).trans hs) h
  case h_13 c rest _ _ _ _ _ _ _ _ _ _ _ =>
    split at h
    case isTrue => exact foundIn_additions hs h
    case isFalse =>
      cases h
      exact .of_place (fun _ => .inr (.inl rfl)) hs
  all_goals cases h

theorem foundIn_read (h : read text = .error fault) : fault.FoundIn ('(' :: text) := by
  simp only [read] at h
  split at h
  case h_1 rest => exact foundIn_extension rfl ⟨['(', '?'], rfl⟩ h
  case h_2 => cases h

end GroupHeader

namespace Lexeme

theorem foundIn_brace (h : brace text = .error fault) : fault.FoundIn ('{' :: text) := by
  simp only [brace] at h
  split at h
  case h_1 => cases h
  case h_2 n count hs =>
    split at h <;> cases h
    exact .of_place (fun _ => by rw [Cause.PointsAt, hs]; rfl) List.suffix_rfl

theorem foundIn_solid {c : Char} (h : solid c rest = .error fault) : fault.FoundIn (c :: rest) := by
  simp only [solid] at h
  split at h
  case h_6 => exact foundIn_brace h
  case h_7 => exact GroupHeader.foundIn_read h
  case h_8 => exact CharClass.foundIn_read (eq_error_of_map h)
  case h_9 => exact Escape.foundIn_item (eq_error_of_map h)
  all_goals cases h

theorem foundIn_read {verbose : Bool} {c : Char} (h : read verbose c rest = .error fault) :
    fault.FoundIn (c :: rest) := by
  simp only [read] at h
  repeat' split at h
  · cases h
  · cases h
  · exact foundIn_solid h

/-- A group header is no quantifier and closes nothing. -/
theorem not_of_header {lexeme : Lexeme} {after : List Char}
    (h : GroupHeader.read rest = .ok (lexeme, after)) :
    (∀ q, lexeme ≠ .quantifier q) ∧ lexeme ≠ .closing := by
  rcases GroupHeader.cases_of_read h with ⟨kind, rfl⟩ | ⟨token, rfl⟩ | ⟨rfl, -⟩ | ⟨⟨found, rfl⟩, -⟩ <;>
    simp

theorem sign_of_quantifier {verbose : Bool} {c : Char} {q : Quantifier} {after : List Char}
    (h : read verbose c rest = .ok (.quantifier q, after)) : c ∈ ['*', '+', '?', '{'] := by
  have hs : solid c rest = .ok (.quantifier q, after) := solid_of_read h (by simp)
  rcases cases_of_solid hs with rfl | ⟨hc, -⟩ | ⟨token, ht⟩ | hb | ⟨-, hb⟩
  · exact absurd rfl ((not_of_header hs).1 q)
  · exact hc
  all_goals contradiction

theorem eq_of_closing {verbose : Bool} {c : Char} {after : List Char}
    (h : read verbose c rest = .ok (.closing, after)) : c = ')' := by
  have hs : solid c rest = .ok (.closing, after) := solid_of_read h (by simp)
  rcases cases_of_solid hs with rfl | ⟨-, q, hq⟩ | ⟨token, ht⟩ | hb | ⟨hc, -⟩
  · exact absurd rfl (not_of_header hs).2
  · contradiction
  · contradiction
  · contradiction
  · exact hc

end Lexeme

namespace Nesting

def OpenedIn (text : List Char) (n : Nesting) : Prop :=
  ∀ group ∈ n.groups, group.opened.head? = some '(' ∧ group.opened <:+ text

theorem openedIn_start (text : List Char) (flags : Flags) : (start flags).OpenedIn text := by
  simp [OpenedIn, start]

variable {n n' m : Nesting} {c : Char} {lexeme : Lexeme} {rest' : List Char}

theorem foundIn_push (hl : Lexeme.read n.isVerbose c rest = .ok (lexeme, rest'))
    (h : n.push (c :: rest) lexeme = .error fault) : fault.FoundIn (c :: rest) := by
  cases lexeme with
  | closing =>
    obtain rfl := Lexeme.eq_of_closing hl
    simp only [push] at h
    split at h <;> cases h
    exact .of_place (fun _ => rfl) List.suffix_rfl
  | quantifier q =>
    simp only [push] at h
    split at h <;> cases h
    case h_2 cause hf =>
      have hs : ∃ d ∈ ['*', '+', '?', '{'], (c :: rest).head? = some d :=
        ⟨c, Lexeme.sign_of_quantifier hl, rfl⟩
      refine .of_place (fun _ => ?_) List.suffix_rfl
      simp only [Alternatives.quantify] at hf
      split at hf <;> cases hf <;> exact hs
  | filler => cases h
  | item token => cases h
  | flags added => cases h
  | bar => cases h
  | opening kind => cases h

theorem Step.openedIn (h : Step n c rest lexeme n' rest') (hn : n.OpenedIn whole)
    (hs : c :: rest <:+ whole) : n'.OpenedIn whole := by
  have he := h.effect
  cases lexeme with
  | filler => cases he; exact hn
  | item token => cases he; exact hn
  | flags added => cases he; exact hn
  | bar => cases he; exact hn
  | opening kind =>
    obtain rfl := Lexeme.eq_of_opening h.reads
    cases he
    exact List.forall_mem_cons.mpr ⟨⟨rfl, hs⟩, hn⟩
  | closing =>
    obtain ⟨group, groups, hg, rfl⟩ := exists_group_of_push he
    intro inner hi
    exact hn inner (hg ▸ List.mem_cons_of_mem group hi)
  | quantifier q =>
    obtain ⟨current, -, rfl⟩ := exists_quantify_of_push he
    exact hn

/-- A reading fails where the cause is to be seen, or it keeps the places of open groups. -/
theorem foundIn_read (hs : text <:+ whole) (hn : n.OpenedIn whole) :
    (∀ fault, n.read text = .error fault → fault.FoundIn whole) ∧
      ∀ m, n.read text = .ok m → m.OpenedIn whole := by
  -- a lexeme may take any number of characters, so the induction is on the length
  induction hl : text.length using Nat.strongRecOn generalizing n text with
  | ind l ih =>
    cases text with
    | nil =>
      rw [read_nil]
      exact ⟨fun _ h => (nomatch h), fun _ h => Except.ok.inj h ▸ hn⟩
    | cons c rest =>
      rw [read_cons]
      split
      case isTrue deep =>
        obtain ⟨rfl, -⟩ := deep
        refine ⟨fun _ h => ?_, fun _ h => nomatch h⟩
        cases h
        exact .of_place (fun _ => rfl) hs
      case isFalse shallow =>
        split
        case h_1 fault' hf =>
          refine ⟨fun _ h => ?_, fun _ h => nomatch h⟩
          cases h
          exact (Lexeme.foundIn_read hf).of_suffix hs
        case h_2 lexeme rest' hf =>
          split
          case h_1 fault' hp =>
            refine ⟨fun _ h => ?_, fun _ h => nomatch h⟩
            cases h
            exact (foundIn_push hf hp).of_suffix hs
          case h_2 n' hp =>
            have hstep : Step n c rest lexeme n' rest' :=
              ⟨fun hc => Nat.lt_of_not_le fun hd => shallow ⟨hc, hd⟩, hf, hp⟩
            have hs' : rest' <:+ whole :=
              (Lexeme.suffix_of_read hf).trans ((List.suffix_cons c rest).trans hs)
            exact ih _ (hl ▸ hstep.length_lt) hs' (hstep.openedIn hn hs) rfl

theorem foundIn_finish (hm : m.OpenedIn whole) (h : m.finish = .error fault) :
    fault.FoundIn whole := by
  simp only [finish] at h
  split at h
  case h_1 => cases h
  case h_2 group groups hg =>
    cases h
    obtain ⟨ho, hs⟩ := hm group (hg ▸ List.mem_cons_self)
    exact .of_place (fun _ => ho) hs

end Nesting

namespace Pattern

theorem foundIn_readOnce {flags : Flags} (h : readOnce text flags = .error fault) :
    fault.FoundIn text := by
  obtain ⟨hread, hkeeps⟩ :=
    Nesting.foundIn_read (List.suffix_refl text) (Nesting.openedIn_start text flags)
  simp only [readOnce] at h
  split at h
  case h_1 hr =>
    cases h
    exact hread _ hr
  case h_2 m hr =>
    split at h <;> cases h
    case h_1 hf => exact Nesting.foundIn_finish (hkeeps m hr) hf

theorem foundIn_read {flags : Flags} (h : read text flags = .error fault) : fault.FoundIn text := by
  simp only [read] at h
  split at h
  case h_1 ho =>
    cases h
    exact foundIn_readOnce ho
  case h_2 =>
    split at h
    case isTrue => exact foundIn_readOnce h
    case isFalse => cases h

/-- An error points to a character of the text, or to its end, where the cause is to be seen. -/
theorem compile_error_place {text : String} {flags : Flags} {e : PatternError}
    (h : compile text flags = .error e) :
    e.offset ≤ text.utf8ByteSize ∧ (String.Pos.Raw.mk e.offset).IsValid text ∧
      ∃ before place, text = before ++ place ∧ e.offset = before.utf8ByteSize ∧
        e.cause.PointsAt before.toList place.toList := by
  simp only [compile] at h
  split at h
  case h_2 => cases h
  case h_1 fault hr =>
    cases h
    obtain ⟨before, ht, hp⟩ := foundIn_read hr
    have hs : text = String.ofList before ++ String.ofList fault.place := by
      rw [← String.ofList_append, ← ht, String.ofList_toList]
    have ho : (fault.locate text.toList).offset = (String.ofList before).utf8ByteSize := by
      rw [Fault.locate, ht, byteLength_append, ← byteLength_toList, String.toList_ofList]
      exact Nat.add_sub_cancel ..
    refine ⟨?_, ?_, String.ofList before, String.ofList fault.place, hs, ho, ?_⟩
    · rw [ho, hs, String.utf8ByteSize_append]
      exact Nat.le_add_right ..
    · rw [String.Pos.Raw.isValid_iff_exists_append]
      exact ⟨_, _, hs, String.Pos.Raw.ext ho⟩
    · rw [String.toList_ofList, String.toList_ofList]
      exact hp

open scoped TreeEquality

/-- The first reading finds something to repeat, and a flag that makes a comment of it: only the
second one fails, behind a letter of two bytes. -/
theorem compile_error_place_reread :
    let text := "#é(?x)\n*"
    compile text ∅ = .error ⟨.nothingToRepeat, 8⟩ ∧ 8 ≤ text.utf8ByteSize ∧
      (String.Pos.Raw.mk 8).IsValid text ∧
      ∃ before place, text = before ++ place ∧ 8 = before.utf8ByteSize ∧
        Cause.PointsAt before.toList place.toList .nothingToRepeat := by
  intro text
  have hr : read text.toList ∅ = .error ⟨.nothingToRepeat, ['*']⟩ := by decide +kernel
  have hc : compile text ∅ = .error ⟨.nothingToRepeat, 8⟩ := by
    simp only [compile, hr]
    exact congrArg Except.error (by decide)
  exact ⟨hc, compile_error_place hc⟩

end Pattern

end RegexTypeset
