import RegexTypeset.Lexeme.Escape

/-! # Character classes

A class lists members between brackets: literals, categories and ranges. A bracket that
closes nothing yet, right at the start, is a literal; a hyphen makes a range unless it
is the last member. Each member takes at least one character, so a class is read in
finitely many steps.
-/
namespace RegexTypeset.CharClass

/-- A member that starts with a given character, where a hyphen after it is not looked at. -/
def single (c : Char) (rest : List Char) : Except Fault (Token × List Char) :=
  if c = '\\' then Escape.member rest else .ok (.literal c, rest)

def range (text : List Char) (lo : Char) (c : Char) (rest : List Char) :
    Except Fault (Token × List Char) :=
  match single c rest with
  | .error fault => .error fault
  | .ok (.literal hi, rest') =>
    if hi < lo then .error ⟨.badRange lo hi, text⟩ else .ok (.charRange lo hi, rest')
  | .ok _ => .error ⟨.badRange lo '\\', c :: rest⟩

def member (c : Char) (rest : List Char) : Except Fault (Token × List Char) :=
  match single c rest with
  | .error fault => .error fault
  | .ok (.literal lo, '-' :: d :: rest') =>
    if d = ']' then .ok (.literal lo, '-' :: d :: rest') else range (c :: rest) lo d rest'
  | .ok read => .ok read

theorem suffix_of_single {c : Char} {rest after : List Char} {token : Token}
    (h : single c rest = .ok (token, after)) : after <:+ rest := by
  simp only [single] at h
  split at h
  case isTrue =>
    obtain ⟨d, more, rfl, shorter⟩ := Escape.suffix_of_member h
    exact shorter.trans (List.suffix_cons d more)
  case isFalse => cases h; exact List.suffix_rfl

theorem suffix_of_range {text rest after : List Char} {lo c : Char} {token : Token}
    (h : range text lo c rest = .ok (token, after)) : after <:+ rest := by
  simp only [range] at h
  split at h
  case h_1 => cases h
  case h_2 read =>
    split at h
    case isTrue => cases h
    case isFalse => cases h; exact suffix_of_single read
  case h_3 => cases h

theorem suffix_of_member {c : Char} {rest after : List Char} {token : Token}
    (h : member c rest = .ok (token, after)) : after <:+ rest := by
  simp only [member] at h
  split at h
  case h_1 => cases h
  case h_2 lo d more read =>
    have shorter := suffix_of_single read
    split at h
    case isTrue => cases h; exact shorter
    case isFalse =>
      have skipped : more <:+ '-' :: d :: more := ⟨['-', d], rfl⟩
      exact (suffix_of_range h).trans (skipped.trans shorter)
  case h_3 read => cases h; exact suffix_of_single read

/-- The members up to the bracket that closes the class. The first character is never that
bracket; `opened` is the text from the opening bracket on. -/
def members (opened : List Char) (first : Bool) (seen : List Token) :
    List Char → Except Fault (List Token × List Char)
  | [] => .error ⟨.unterminatedClass, opened⟩
  | c :: rest =>
    if c = ']' ∧ first = false then .ok (seen.reverse, rest)
    else
      match _h : member c rest with
      | .error fault => .error fault
      | .ok (token, rest') => members opened false (token :: seen) rest'
termination_by text => text.length
decreasing_by
  have shorter := (suffix_of_member _h).length_le
  simp only [List.length_cons]
  omega

theorem members_cons (opened : List Char) (first : Bool) (seen : List Token) (c : Char)
    (rest : List Char) :
    members opened first seen (c :: rest) =
      if c = ']' ∧ first = false then .ok (seen.reverse, rest)
      else
        match member c rest with
        | .error fault => .error fault
        | .ok (token, rest') => members opened false (token :: seen) rest' := by
  rw [members]
  by_cases stop : c = ']' ∧ first = false
  · rw [if_pos stop, if_pos stop]
  · rw [if_neg stop, if_neg stop]
    split
    · next fault read => rw [read]
    · next token rest' read => rw [read]

def token (negated : Bool) (members : List Token) : Token :=
  if negated then .unrendered .negatedClass
  else
    match members with
    | [.literal c] => .literal c
    | _ => .charClass members

def read (text : List Char) : Except Fault (Token × List Char) :=
  match text with
  | '^' :: rest =>
    (members ('[' :: text) true [] rest).map fun (items, rest) => (token true items, rest)
  | _ => (members ('[' :: text) true [] text).map fun (items, rest) => (token false items, rest)

theorem suffix_of_members {opened text after : List Char} {first : Bool} {seen items : List Token}
    (h : members opened first seen text = .ok (items, after)) : after <:+ text := by
  fun_induction members opened first seen text with
  | case1 => cases h
  | case2 => cases h; exact List.suffix_cons _ _
  | case3 => cases h
  | case4 first seen c rest stays token rest' read ih =>
    exact (ih h).trans ((suffix_of_member read).trans (List.suffix_cons c rest))

theorem suffix_of_read {text after : List Char} {item : Token}
    (h : read text = .ok (item, after)) : after <:+ text := by
  have map_ok {negated : Bool} {rest : List Char}
      (h : (members ('[' :: text) true [] rest).map
        (fun (items, rest) => (token negated items, rest)) = .ok (item, after)) :
      after <:+ rest := by
    cases found : members ('[' :: text) true [] rest with
    | error fault => rw [found] at h; cases h
    | ok result => rw [found] at h; cases h; exact suffix_of_members found
  simp only [read] at h
  split at h
  case h_1 rest => exact (map_ok h).trans (List.suffix_cons '^' rest)
  case h_2 => exact map_ok h

end RegexTypeset.CharClass
