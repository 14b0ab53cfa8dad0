import RegexTypeset.Lexeme.Basic
import RegexTypeset.Lexeme.GroupName

/-! # Group headers

After an opening parenthesis a question mark starts a header. It gives the kind of the
group that the parenthesis opens, or makes the parentheses something else: a comment, a
directive that sets flags, or a reference to a named group.
-/
namespace RegexTypeset.GroupHeader

def removals (opened : List Char) (added removed : Flags) :
    List Char → Except Fault (Lexeme × List Char)
  | [] => .error ⟨.unexpectedEnd, opened⟩
  | ':' :: rest => .ok (.opening (.flagged added removed), rest)
  | c :: rest =>
    match Flags.ofLetter? c with
    | some flag => removals opened added (removed ∪ flag) rest
    | none => .error ⟨.badFlag c, rest⟩

/-- The flags to set. A parenthesis makes them hold for the whole pattern, a colon for the
group; a hyphen starts the flags to clear, which only a group may have. -/
def additions (opened : List Char) (added : Flags) :
    List Char → Except Fault (Lexeme × List Char)
  | [] => .error ⟨.unexpectedEnd, opened⟩
  | ')' :: rest => .ok (.flags added, rest)
  | ':' :: rest => .ok (.opening (.flagged added ∅), rest)
  | '-' :: rest => removals opened added ∅ rest
  | c :: rest =>
    match Flags.ofLetter? c with
    | some flag => additions opened (added ∪ flag) rest
    | none => .error ⟨.badFlag c, rest⟩

def comment (opened text : List Char) : Except Fault (Lexeme × List Char) :=
  match text.dropWhile (· ≠ ')') with
  | [] => .error ⟨.unterminatedGroup, opened⟩
  | _ :: rest => .ok (.filler, rest)

def named (terminator : Char) (lexeme : String → Lexeme) (text : List Char) :
    Except Fault (Lexeme × List Char) :=
  (GroupName.read terminator text).map fun (name, rest) => (lexeme name, rest)

def extension (opened text : List Char) : Except Fault (Lexeme × List Char) :=
  match text with
  | [] => .error ⟨.unexpectedEnd, text⟩
  | ':' :: rest => .ok (.opening .plain, rest)
  | 'P' :: '<' :: rest => named '>' (fun _ => .opening .plain) rest
  | 'P' :: '=' :: rest => named ')' (fun name => .item (.unrendered (.backreference name))) rest
  | 'P' :: rest => .error ⟨.unknownExtension 'P', rest⟩
  | '=' :: rest => .ok (.opening (.unrendered (.lookaround true false)), rest)
  | '!' :: rest => .ok (.opening (.unrendered (.lookaround true true)), rest)
  | '<' :: '=' :: rest => .ok (.opening (.unrendered (.lookaround false false)), rest)
  | '<' :: '!' :: rest => .ok (.opening (.unrendered (.lookaround false true)), rest)
  | '<' :: _ => .error ⟨.unknownExtension '<', opened⟩
  | '#' :: rest => comment opened rest
  | '(' :: rest => named ')' (fun name => .opening (.unrendered (.conditional name))) rest
  | c :: _ =>
    if c = '-' ∨ (Flags.ofLetter? c).isSome then additions opened ∅ text
    else .error ⟨.unknownExtension c, text⟩

def read (text : List Char) : Except Fault (Lexeme × List Char) :=
  match text with
  | '?' :: rest => extension ('(' :: text) rest
  | _ => .ok (.opening .plain, text)

theorem suffix_of_removals {opened text after : List Char} {added removed : Flags} {lexeme : Lexeme}
    (h : removals opened added removed text = .ok (lexeme, after)) : after <:+ text := by
  fun_induction removals opened added removed text with
  | case1 => cases h
  | case2 => cases h; exact List.suffix_cons _ _
  | case3 _ c rest _ _ _ ih => exact (ih h).trans (List.suffix_cons c rest)
  | case4 => cases h

theorem suffix_of_additions {opened text after : List Char} {added : Flags} {lexeme : Lexeme}
    (h : additions opened added text = .ok (lexeme, after)) : after <:+ text := by
  fun_induction additions opened added text with
  | case1 => cases h
  | case2 => cases h; exact List.suffix_cons _ _
  | case3 => cases h; exact List.suffix_cons _ _
  | case4 _ rest => exact (suffix_of_removals h).trans (List.suffix_cons '-' rest)
  | case5 _ c rest _ _ _ _ _ ih => exact (ih h).trans (List.suffix_cons c rest)
  | case6 => cases h

theorem suffix_of_comment {opened text after : List Char} {lexeme : Lexeme}
    (h : comment opened text = .ok (lexeme, after)) : after <:+ text := by
  simp only [comment] at h
  split at h
  case h_1 => cases h
  case h_2 stop rest found =>
    cases h
    exact (List.suffix_cons stop after).trans (found ▸ List.dropWhile_suffix _)

theorem suffix_of_named {terminator : Char} {kind : String → Lexeme} {text after : List Char}
    {lexeme : Lexeme} (h : named terminator kind text = .ok (lexeme, after)) : after <:+ text := by
  simp only [named] at h
  cases found : GroupName.read terminator text with
  | error fault => rw [found] at h; cases h
  | ok result => rw [found] at h; cases h; exact GroupName.suffix_of_read found

theorem suffix_of_extension {opened text after : List Char} {lexeme : Lexeme}
    (h : extension opened text = .ok (lexeme, after)) : after <:+ text := by
  simp only [extension] at h
  split at h
  case h_1 => cases h
  case h_2 rest => cases h; exact List.suffix_cons _ _
  case h_3 rest => exact (suffix_of_named h).trans ⟨['P', '<'], rfl⟩
  case h_4 rest => exact (suffix_of_named h).trans ⟨['P', '='], rfl⟩
  case h_5 => cases h
  case h_6 => cases h; exact List.suffix_cons _ _
  case h_7 => cases h; exact List.suffix_cons _ _
  case h_8 => cases h; exact ⟨['<', '='], rfl⟩
  case h_9 => cases h; exact ⟨['<', '!'], rfl⟩
  case h_10 => cases h
  case h_11 rest => exact (suffix_of_comment h).trans (List.suffix_cons '#' rest)
  case h_12 rest => exact (suffix_of_named h).trans (List.suffix_cons '(' rest)
  case h_13 c rest _ _ _ _ _ _ _ _ _ _ _ =>
    split at h
    case isTrue => exact suffix_of_additions h
    case isFalse => cases h

theorem suffix_of_read {text after : List Char} {lexeme : Lexeme}
    (h : read text = .ok (lexeme, after)) : after <:+ text := by
  simp only [read] at h
  split at h
  case h_1 rest => exact (suffix_of_extension h).trans (List.suffix_cons '?' rest)
  case h_2 => cases h; exact List.suffix_rfl

end RegexTypeset.GroupHeader
