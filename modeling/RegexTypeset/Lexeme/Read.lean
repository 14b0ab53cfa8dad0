import RegexTypeset.Count
import RegexTypeset.Lexeme.CharClass
import RegexTypeset.Lexeme.GroupHeader
import RegexTypeset.Text.Blank

/-! # Reading one lexeme

The text is cut into lexemes from the left. In verbose reading, blanks and comments from
a number sign to the end of the line are filler. How a lexeme is read depends on the
text and on whether the reading is verbose, and on nothing else.
-/
namespace RegexTypeset.Lexeme

def quantified (min : UInt32) (max : Option UInt32) : List Char → Lexeme × List Char
  | '?' :: rest => (.quantifier ⟨min, max, true⟩, rest)
  | rest => (.quantifier ⟨min, max, false⟩, rest)

def brace (text : List Char) : Except Fault (Lexeme × List Char) :=
  match Count.scan? ('{' :: text) with
  | none => .ok (.item (.literal '{'), text)
  | some (n, count) =>
    match count.bounds? with
    | some (min, max) => .ok (quantified min max (('{' :: text).drop n))
    | none => .error ⟨.repeatBounds, '{' :: text⟩

def ofToken (read : Except Fault (Token × List Char)) : Except Fault (Lexeme × List Char) :=
  read.map fun (token, rest) => (.item token, rest)

/-- A lexeme that is not filler of a verbose reading, from its first character and the rest. -/
def solid (c : Char) (rest : List Char) : Except Fault (Lexeme × List Char) :=
  match c with
  | '|' => .ok (.bar, rest)
  | ')' => .ok (.closing, rest)
  | '*' => .ok (quantified 0 none rest)
  | '+' => .ok (quantified 1 none rest)
  | '?' => .ok (quantified 0 (some 1) rest)
  | '{' => brace rest
  | '(' => GroupHeader.read rest
  | '[' => ofToken (CharClass.read rest)
  | '\\' => ofToken (Escape.item rest)
  | '.' => .ok (.item .wildcard, rest)
  | '^' => .ok (.item (.anchor .lineStart), rest)
  | '$' => .ok (.item (.anchor .lineEnd), rest)
  | c => .ok (.item (.literal c), rest)

def nextLine (text : List Char) : List Char := (text.dropWhile (· ≠ '\n')).drop 1

def read (verbose : Bool) (c : Char) (rest : List Char) : Except Fault (Lexeme × List Char) :=
  if verbose && isBlank c then .ok (.filler, rest)
  else if verbose && c == '#' then .ok (.filler, nextLine rest)
  else solid c rest

theorem suffix_of_quantified {min : UInt32} {max : Option UInt32} {text after : List Char}
    {lexeme : Lexeme} (h : quantified min max text = (lexeme, after)) : after <:+ text := by
  simp only [quantified] at h
  split at h
  case h_1 => cases h; exact List.suffix_cons _ _
  case h_2 => cases h; exact List.suffix_rfl

theorem suffix_of_brace {text after : List Char} {lexeme : Lexeme}
    (h : brace text = .ok (lexeme, after)) : after <:+ text := by
  simp only [brace] at h
  split at h
  case h_1 => cases h; exact List.suffix_rfl
  case h_2 n count found =>
    split at h
    case h_1 => exact (suffix_of_quantified (Except.ok.inj h)).trans (Count.suffix_of_scan? found)
    case h_2 => cases h

theorem eq_of_ofToken {read : Except Fault (Token × List Char)} {lexeme : Lexeme}
    {after : List Char} (h : ofToken read = .ok (lexeme, after)) :
    ∃ token, read = .ok (token, after) ∧ lexeme = .item token := by
  cases read with
  | error fault => cases h
  | ok result => cases h; exact ⟨_, rfl, rfl⟩

theorem suffix_of_solid {c : Char} {rest after : List Char} {lexeme : Lexeme}
    (h : solid c rest = .ok (lexeme, after)) : after <:+ rest := by
  simp only [solid] at h
  split at h
  case h_1 => cases h; exact List.suffix_rfl
  case h_2 => cases h; exact List.suffix_rfl
  case h_3 => exact suffix_of_quantified (Except.ok.inj h)
  case h_4 => exact suffix_of_quantified (Except.ok.inj h)
  case h_5 => exact suffix_of_quantified (Except.ok.inj h)
  case h_6 => exact suffix_of_brace h
  case h_7 => exact GroupHeader.suffix_of_read h
  case h_8 =>
    obtain ⟨_, read, -⟩ := eq_of_ofToken h
    exact CharClass.suffix_of_read read
  case h_9 =>
    obtain ⟨_, read, -⟩ := eq_of_ofToken h
    obtain ⟨d, more, rfl, shorter⟩ := Escape.suffix_of_item read
    exact shorter.trans (List.suffix_cons d more)
  case h_10 => cases h; exact List.suffix_rfl
  case h_11 => cases h; exact List.suffix_rfl
  case h_12 => cases h; exact List.suffix_rfl
  case h_13 => cases h; exact List.suffix_rfl

theorem suffix_of_read {verbose : Bool} {c : Char} {rest after : List Char} {lexeme : Lexeme}
    (h : read verbose c rest = .ok (lexeme, after)) : after <:+ rest := by
  simp only [read] at h
  split at h
  case isTrue => cases h; exact List.suffix_rfl
  case isFalse =>
    split at h
    case isTrue =>
      cases h
      exact (List.drop_suffix _ _).trans (List.dropWhile_suffix _)
    case isFalse => exact suffix_of_solid h

end RegexTypeset.Lexeme
