import RegexTypeset.PatternError
import RegexTypeset.Token

/-! # Escape sequences

A backslash and what follows it name a category, an anchor, a group matched before, or
one character: by a letter, by a hexadecimal or octal code, or as itself when it is no
ASCII letter or digit. The readers here take the text after the backslash and return
the text after the sequence; their faults point at the backslash.
-/
namespace RegexTypeset.Escape

def bad (written : List Char) (text : List Char) : Fault :=
  ⟨.badEscape (String.ofList ('\\' :: written)), '\\' :: text⟩

def isOctal (c : Char) : Bool := '0' ≤ c && c ≤ '7'

def isHex (c : Char) : Bool :=
  c.isDigit || ('a' ≤ c && c ≤ 'f') || ('A' ≤ c && c ≤ 'F')

def digitValue (c : Char) : Nat :=
  if c.isDigit then c.toNat - '0'.toNat
  else if 'a' ≤ c then c.toNat - 'a'.toNat + 10
  else c.toNat - 'A'.toNat + 10

def value (base : Nat) (digits : List Char) : Nat :=
  digits.foldl (fun n d => base * n + digitValue d) 0

def charOfCode? (code : Nat) : Option Char :=
  if code.isValidChar then some (Char.ofNat code) else none

/-- The character with an octal code of at most three digits. Codes end at `\377`. -/
def ofOctal? (digits : List Char) : Option Char :=
  if value 8 digits ≤ 0o377 then charOfCode? (value 8 digits) else none

def octal (text : List Char) (first : Char) (rest : List Char) :
    Except Fault (Char × List Char) :=
  let more := (rest.take 2).takeWhile isOctal
  match ofOctal? (first :: more) with
  | some c => .ok (c, rest.drop more.length)
  | none => .error (bad (first :: more) text)

def hex (text : List Char) (marker : Char) (size : Nat) (rest : List Char) :
    Except Fault (Char × List Char) :=
  let digits := (rest.take size).takeWhile isHex
  match if digits.length = size then charOfCode? (value 16 digits) else none with
  | some c => .ok (c, rest.drop size)
  | none => .error (bad (marker :: digits) text)

def control? : Char → Option Char
  | 'n' => some '\n'
  | 't' => some '\t'
  | 'r' => some '\r'
  | 'f' => some '\x0c'
  | 'v' => some '\x0b'
  | 'a' => some '\x07'
  | _ => none

def hexSize? : Char → Option Nat
  | 'x' => some 2
  | 'u' => some 4
  | 'U' => some 8
  | _ => none

def simple (text : List Char) (c : Char) (rest : List Char) : Except Fault (Char × List Char) :=
  match control? c, hexSize? c with
  | some control, _ => .ok (control, rest)
  | none, some size => hex text c size rest
  | none, none => if c.isAlphanum then .error (bad [c] text) else .ok (c, rest)

def groupNumber (first : Char) (rest : List Char) : Token × List Char :=
  let more := (rest.take 1).takeWhile Char.isDigit
  (.unrendered (.backreference (String.ofList (first :: more))), rest.drop more.length)

/-- A digit other than zero starts an octal code if it is the first of three octal digits,
and the number of a group otherwise. -/
def numbered (text : List Char) (first : Char) (rest : List Char) :
    Except Fault (Token × List Char) :=
  match rest with
  | second :: third :: rest' =>
    if isOctal first && isOctal second && isOctal third then
      match ofOctal? [first, second, third] with
      | some c => .ok (.literal c, rest')
      | none => .error (bad [first, second, third] text)
    else .ok (groupNumber first rest)
  | _ => .ok (groupNumber first rest)

def literal (read : Except Fault (Char × List Char)) : Except Fault (Token × List Char) :=
  read.map fun (c, rest) => (.literal c, rest)

def item (text : List Char) : Except Fault (Token × List Char) :=
  match text with
  | [] => .error (bad [] text)
  | c :: rest =>
    match Category.ofLetter? c, Anchor.ofLetter? c with
    | some category, _ => .ok (.category category, rest)
    | none, some anchor => .ok (.anchor anchor, rest)
    | none, none =>
      if c = '0' then literal (octal text c rest)
      else if c.isDigit then numbered text c rest
      else literal (simple text c rest)

/-- An escape sequence inside a class, where `\b` is the backspace character and any octal
digit starts a code. -/
def member (text : List Char) : Except Fault (Token × List Char) :=
  match text with
  | [] => .error (bad [] text)
  | c :: rest =>
    match Category.ofLetter? c with
    | some category => .ok (.category category, rest)
    | none =>
      if c = 'b' then .ok (.literal '\x08', rest)
      else if isOctal c then literal (octal text c rest)
      else literal (simple text c rest)

theorem suffix_of_octal {text rest after : List Char} {first c : Char}
    (h : octal text first rest = .ok (c, after)) : after <:+ rest := by
  simp only [octal] at h
  split at h
  case h_1 => cases h; exact List.drop_suffix _ _
  case h_2 => cases h

theorem suffix_of_hex {text rest after : List Char} {marker c : Char} {size : Nat}
    (h : hex text marker size rest = .ok (c, after)) : after <:+ rest := by
  simp only [hex] at h
  split at h
  case h_1 => cases h; exact List.drop_suffix _ _
  case h_2 => cases h

theorem suffix_of_simple {text rest after : List Char} {c d : Char}
    (h : simple text c rest = .ok (d, after)) : after <:+ rest := by
  simp only [simple] at h
  split at h
  case h_1 => cases h; exact List.suffix_rfl
  case h_2 => exact suffix_of_hex h
  case h_3 =>
    split at h
    case isTrue => cases h
    case isFalse => cases h; exact List.suffix_rfl

theorem suffix_of_groupNumber {first : Char} {rest after : List Char} {token : Token}
    (h : groupNumber first rest = (token, after)) : after <:+ rest := by
  cases h
  exact List.drop_suffix _ _

theorem suffix_of_numbered {text rest after : List Char} {first : Char} {token : Token}
    (h : numbered text first rest = .ok (token, after)) : after <:+ rest := by
  simp only [numbered] at h
  split at h
  case h_1 second third rest' =>
    split at h
    case isTrue =>
      split at h
      case h_1 => cases h; exact ⟨[second, third], rfl⟩
      case h_2 => cases h
    case isFalse =>
      exact suffix_of_groupNumber (Except.ok.inj h)
  case h_2 =>
    exact suffix_of_groupNumber (Except.ok.inj h)

theorem eq_of_literal {read : Except Fault (Char × List Char)} {token : Token} {after : List Char}
    (h : literal read = .ok (token, after)) :
    ∃ c, read = .ok (c, after) ∧ token = .literal c := by
  cases read with
  | error fault => cases h
  | ok result => cases h; exact ⟨_, rfl, rfl⟩

theorem suffix_of_item {text after : List Char} {token : Token}
    (h : item text = .ok (token, after)) : ∃ c rest, text = c :: rest ∧ after <:+ rest := by
  cases text with
  | nil => cases h
  | cons c rest =>
    refine ⟨c, rest, rfl, ?_⟩
    simp only [item] at h
    repeat' split at h
    · cases h; exact List.suffix_rfl
    · cases h; exact List.suffix_rfl
    · obtain ⟨_, h, -⟩ := eq_of_literal h
      exact suffix_of_octal h
    · exact suffix_of_numbered h
    · obtain ⟨_, h, -⟩ := eq_of_literal h
      exact suffix_of_simple h

theorem suffix_of_member {text after : List Char} {token : Token}
    (h : member text = .ok (token, after)) : ∃ c rest, text = c :: rest ∧ after <:+ rest := by
  cases text with
  | nil => cases h
  | cons c rest =>
    refine ⟨c, rest, rfl, ?_⟩
    simp only [member] at h
    repeat' split at h
    · cases h; exact List.suffix_rfl
    · cases h; exact List.suffix_rfl
    · obtain ⟨_, h, -⟩ := eq_of_literal h
      exact suffix_of_octal h
    · obtain ⟨_, h, -⟩ := eq_of_literal h
      exact suffix_of_simple h

end RegexTypeset.Escape
