import RegexTypeset.Proofs.ReaderExtent
import RegexTypeset.Proofs.TreeShape

/-! # What lexemes bring in

A lexeme that is read holds only what a tree may have: a leaf that is right by itself,
bounds in their order, or the kind of a group with a proper name.
-/
namespace RegexTypeset

namespace Escape

theorem isMember_of_member {text after : List Char} {token : Token}
    (h : member text = .ok (token, after)) : token.IsMember := by
  cases text with
  | nil => cases h
  | cons c rest =>
    simp only [member] at h
    repeat' split at h
    · cases h; trivial
    · cases h; trivial
    · obtain ⟨d, -, rfl⟩ := eq_of_literal h
      trivial
    · obtain ⟨d, -, rfl⟩ := eq_of_literal h
      trivial

theorem readLeaf_of_groupNumber {first : Char} {rest after : List Char} {token : Token}
    (hf : first.isDigit = true) (h : groupNumber first rest = (token, after)) : ReadLeaf token := by
  cases h
  refine Or.inr ?_
  simp [GroupName.isNumber, hf]

theorem readLeaf_of_numbered {text rest after : List Char} {first : Char} {token : Token}
    (hf : first.isDigit = true) (h : numbered text first rest = .ok (token, after)) :
    ReadLeaf token := by
  simp only [numbered] at h
  repeat' split at h
  · cases h; trivial
  · cases h
  · exact readLeaf_of_groupNumber hf (Except.ok.inj h)
  · exact readLeaf_of_groupNumber hf (Except.ok.inj h)

theorem readLeaf_of_item {text after : List Char} {token : Token}
    (h : item text = .ok (token, after)) : ReadLeaf token := by
  cases text with
  | nil => cases h
  | cons c rest =>
    simp only [item] at h
    repeat' split at h
    · cases h; trivial
    · cases h; trivial
    · obtain ⟨d, -, rfl⟩ := eq_of_literal h
      trivial
    · next hf => exact readLeaf_of_numbered hf h
    · obtain ⟨d, -, rfl⟩ := eq_of_literal h
      trivial

end Escape

namespace CharClass

theorem isMember_of_single {c : Char} {rest after : List Char} {token : Token}
    (h : single c rest = .ok (token, after)) : token.IsMember := by
  simp only [single] at h
  split at h
  case isTrue => exact Escape.isMember_of_member h
  case isFalse => cases h; trivial

theorem isMember_of_member {c : Char} {rest after : List Char} {token : Token}
    (h : member c rest = .ok (token, after)) : token.IsMember := by
  simp only [member] at h
  split at h
  case h_1 => cases h
  case h_2 lo d rest' hs =>
    split at h
    case isTrue => cases h; trivial
    case isFalse =>
      simp only [range] at h
      split at h
      case h_1 => cases h
      case h_2 hi rest'' hs' =>
        split at h
        case isTrue => cases h
        case isFalse hlt =>
          cases h
          exact Char.not_lt.mp hlt
      case h_3 => cases h
  case h_3 hs =>
    cases h
    exact isMember_of_single hs

/-- All members are proper, and the first character is taken for one. -/
theorem isMember_of_members {opened text after : List Char} {first : Bool} {seen items : List Token}
    (h : members opened first seen text = .ok (items, after)) (hs : ∀ item ∈ seen, item.IsMember) :
    (∀ item ∈ items, item.IsMember) ∧ (first = true ∨ seen ≠ [] → items ≠ []) := by
  fun_induction members opened first seen text with
  | case1 => cases h
  | case2 first seen c rest stop =>
    cases h
    refine ⟨fun item hi => hs item (List.mem_reverse.mp hi), fun hf hn => ?_⟩
    rcases hf with hf | hf
    · exact absurd (hf.symm.trans stop.2) (by decide)
    · exact hf (List.reverse_eq_nil_iff.mp hn)
  | case3 => cases h
  | case4 first seen c rest stays token rest' read ih =>
    obtain ⟨hm, hn⟩ := ih h (by
      intro item hi
      rcases List.mem_cons.mp hi with rfl | hi
      · exact isMember_of_member read
      · exact hs item hi)
    exact ⟨hm, fun _ => hn (Or.inr (List.cons_ne_nil _ _))⟩

theorem readLeaf_token {items : List Token} (negated : Bool) (hm : ∀ item ∈ items, item.IsMember)
    (hn : items ≠ []) : ReadLeaf (token negated items) := by
  unfold token
  split
  case isTrue => trivial
  case isFalse =>
    split
    case h_1 => trivial
    case h_2 hl => exact ⟨hm, hn, fun c hc => hl c hc⟩

theorem readLeaf_of_read {text after : List Char} {item : Token}
    (h : read text = .ok (item, after)) : ReadLeaf item := by
  rcases members_of_read h with ⟨rest, items, -, hr, rfl⟩ | ⟨-, items, hr, rfl⟩
  all_goals
    obtain ⟨hm, hn⟩ := isMember_of_members hr (by simp)
    exact readLeaf_token _ hm (hn (Or.inl rfl))

end CharClass

theorem Count.not_lt_of_bounds? {count : Count} {min : UInt32} {max : Option UInt32}
    (h : count.bounds? = some (min, max)) : max.any (· < min) = false := by
  obtain ⟨low, high⟩ := count
  cases hl : word? low with
  | none => simp [bounds?, hl] at h
  | some lo =>
    rcases high with _ | _ | ⟨d, ds⟩
    · simp only [bounds?, hl, Option.bind_eq_bind, Option.bind_some, Option.some.injEq,
        Prod.mk.injEq] at h
      obtain ⟨rfl, rfl⟩ := h
      simp
    · simp only [bounds?, hl, Option.bind_eq_bind, Option.bind_some, Option.some.injEq,
        Prod.mk.injEq] at h
      obtain ⟨rfl, rfl⟩ := h
      rfl
    · cases hh : word? (d :: ds) with
      | none => simp [bounds?, hl, hh] at h
      | some hi =>
        simp only [bounds?, hl, hh, Option.bind_eq_bind, Option.bind_some] at h
        split at h
        case isTrue => cases h
        case isFalse hlt =>
          simp only [Option.some.injEq, Prod.mk.injEq] at h
          obtain ⟨rfl, rfl⟩ := h
          simpa using hlt

def GroupKind.IsProper : GroupKind → Prop
  | .unrendered construct => construct.IsProper
  | _ => True

def Lexeme.IsProper : Lexeme → Prop
  | .item token => ReadLeaf token
  | .quantifier q => q.isReversed = false
  | .opening kind => kind.IsProper
  | _ => True

namespace GroupHeader

theorem isProper_of_removals {opened text after : List Char} {added removed : Flags}
    {lexeme : Lexeme} (h : removals opened added removed text = .ok (lexeme, after)) :
    lexeme.IsProper := by
  fun_induction removals opened added removed text with
  | case1 => cases h
  | case2 => cases h; trivial
  | case3 _ c rest _ _ _ ih => exact ih h
  | case4 => cases h

theorem isProper_of_additions {opened text after : List Char} {added : Flags} {lexeme : Lexeme}
    (h : additions opened added text = .ok (lexeme, after)) : lexeme.IsProper := by
  fun_induction additions opened added text with
  | case1 => cases h
  | case2 => cases h; trivial
  | case3 => cases h; trivial
  | case4 => exact isProper_of_removals h
  | case5 _ c rest _ _ _ _ _ ih => exact ih h
  | case6 => cases h

theorem exists_name_of_named {terminator : Char} {kind : String → Lexeme} {text after : List Char}
    {lexeme : Lexeme} (h : named terminator kind text = .ok (lexeme, after)) :
    ∃ name : String, GroupName.isValid terminator name.toList = true ∧ lexeme = kind name := by
  obtain ⟨name, -, -, hv, rfl⟩ := named_eq_ok.mp h
  exact ⟨_, by simpa using hv, rfl⟩

theorem isReference_of_isValid {name : String} (h : GroupName.isValid ')' name.toList = true) :
    IsReference name := by
  simpa [GroupName.isValid, IsReference] using h

theorem isProper_of_read {text after : List Char} {lexeme : Lexeme}
    (h : read text = .ok (lexeme, after)) : lexeme.IsProper := by
  simp only [read] at h
  split at h
  case h_2 => cases h; trivial
  case h_1 rest =>
    simp only [extension] at h
    split at h
    case h_3 =>
      obtain ⟨name, -, rfl⟩ := exists_name_of_named h
      trivial
    case h_4 =>
      obtain ⟨name, hv, rfl⟩ := exists_name_of_named h
      exact isReference_of_isValid hv
    case h_12 =>
      obtain ⟨name, hv, rfl⟩ := exists_name_of_named h
      exact isReference_of_isValid hv
    case h_11 =>
      simp only [comment] at h
      split at h
      · cases h
      · cases h; trivial
    case h_13 =>
      split at h
      case isTrue => exact isProper_of_additions h
      case isFalse => cases h
    all_goals first | (cases h; trivial) | cases h

end GroupHeader

namespace Lexeme

variable {c : Char} {rest after : List Char} {lexeme : Lexeme}

theorem isProper_of_quantified {min : UInt32} {max : Option UInt32}
    (hq : max.any (· < min) = false) (h : quantified min max rest = (lexeme, after)) :
    lexeme.IsProper := by
  simp only [quantified] at h
  split at h <;> cases h <;> exact hq

theorem isProper_of_solid (h : solid c rest = .ok (lexeme, after)) : lexeme.IsProper := by
  simp only [solid] at h
  split at h
  case h_3 => exact isProper_of_quantified rfl (Except.ok.inj h)
  case h_4 => exact isProper_of_quantified rfl (Except.ok.inj h)
  case h_5 => exact isProper_of_quantified rfl (Except.ok.inj h)
  case h_6 =>
    rcases cases_of_brace h with ⟨-, rfl, -⟩ | ⟨count, min, max, rest', -, -, hb, hq⟩
    · trivial
    · exact isProper_of_quantified (Count.not_lt_of_bounds? hb) hq
  case h_7 => exact GroupHeader.isProper_of_read h
  case h_8 =>
    obtain ⟨token, hr, rfl⟩ := eq_of_ofToken h
    exact CharClass.readLeaf_of_read hr
  case h_9 =>
    obtain ⟨token, hr, rfl⟩ := eq_of_ofToken h
    exact Escape.readLeaf_of_item hr
  all_goals cases h; trivial

theorem isProper_of_read {verbose : Bool} (h : read verbose c rest = .ok (lexeme, after)) :
    lexeme.IsProper := by
  simp only [read] at h
  repeat' split at h
  · cases h; trivial
  · cases h; trivial
  · exact isProper_of_solid h

theorem exists_of_quantified {min : UInt32} {max : Option UInt32}
    (h : quantified min max rest = (lexeme, after)) : ∃ q, lexeme = .quantifier q := by
  unfold quantified at h
  split at h <;> cases h <;> exact ⟨_, rfl⟩

/-- A character makes an item, a bar, a closing parenthesis or a quantifier, unless it is an
opening parenthesis. -/
theorem cases_of_solid (h : solid c rest = .ok (lexeme, after)) :
    c = '(' ∨ c ∈ ['*', '+', '?', '{'] ∧ (∃ q, lexeme = .quantifier q) ∨
      (∃ token, lexeme = .item token) ∨ lexeme = .bar ∨ c = ')' ∧ lexeme = .closing := by
  simp only [solid] at h
  split at h
  case h_1 => cases h; simp
  case h_2 => cases h; simp
  case h_3 => exact Or.inr (Or.inl ⟨by decide, exists_of_quantified (Except.ok.inj h)⟩)
  case h_4 => exact Or.inr (Or.inl ⟨by decide, exists_of_quantified (Except.ok.inj h)⟩)
  case h_5 => exact Or.inr (Or.inl ⟨by decide, exists_of_quantified (Except.ok.inj h)⟩)
  case h_6 =>
    rcases cases_of_brace h with ⟨-, rfl, -⟩ | ⟨count, min, max, rest', -, -, -, hq⟩
    · simp
    · exact Or.inr (Or.inl ⟨by decide, exists_of_quantified hq⟩)
  case h_7 => exact Or.inl rfl
  case h_8 =>
    obtain ⟨token, -, rfl⟩ := eq_of_ofToken h
    simp
  case h_9 =>
    obtain ⟨token, -, rfl⟩ := eq_of_ofToken h
    simp
  all_goals cases h; simp

/-- What is no filler of a verbose reading is the same in all readings. -/
theorem solid_of_read {verbose : Bool} (h : read verbose c rest = .ok (lexeme, after))
    (hf : lexeme ≠ .filler) : solid c rest = .ok (lexeme, after) := by
  simp only [read] at h
  repeat' split at h
  · cases h
    exact absurd rfl hf
  · cases h
    exact absurd rfl hf
  · exact h

/-- Only a parenthesis opens a group. -/
theorem eq_of_opening {verbose : Bool} {kind : GroupKind}
    (h : read verbose c rest = .ok (.opening kind, after)) : c = '(' := by
  rcases cases_of_solid (solid_of_read h (by simp)) with hc | ⟨-, q, hq⟩ | ⟨token, ht⟩ | hb | ⟨-, hb⟩
  · exact hc
  all_goals contradiction

end Lexeme

end RegexTypeset
