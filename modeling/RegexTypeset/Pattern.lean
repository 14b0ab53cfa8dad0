import RegexTypeset.Event
import RegexTypeset.Lexeme.Read
import RegexTypeset.Nesting

/-! # Patterns

A pattern is read lexeme by lexeme into a nesting of open groups. Each lexeme takes at
least one character, so reading ends. A directive for verbose reading holds for the
whole pattern, wherever it stands: if a reading finds one that was not given from
outside, the pattern is read once more with all the flags that were found.
-/
namespace RegexTypeset

namespace Nesting

/-- Read a text to its end. No parenthesis may follow an opening one once the groups are
nested as deep as they may be, whatever its header. -/
def read (n : Nesting) : List Char → Except Fault Nesting
  | [] => .ok n
  | c :: rest =>
    if c = '(' ∧ maxDepth ≤ n.depth then .error ⟨.tooDeep, c :: rest⟩
    else
      match _h : Lexeme.read n.isVerbose c rest with
      | .error fault => .error fault
      | .ok (lexeme, rest') =>
        match n.push (c :: rest) lexeme with
        | .error fault => .error fault
        | .ok n' => n'.read rest'
termination_by text => text.length
decreasing_by
  have shorter := (Lexeme.suffix_of_read _h).length_le
  simp only [List.length_cons]
  omega

@[simp] theorem read_nil (n : Nesting) : n.read [] = .ok n := by
  rw [read]

theorem read_cons (n : Nesting) (c : Char) (rest : List Char) :
    n.read (c :: rest) =
      if c = '(' ∧ maxDepth ≤ n.depth then .error ⟨.tooDeep, c :: rest⟩
      else
        match Lexeme.read n.isVerbose c rest with
        | .error fault => .error fault
        | .ok (lexeme, rest') =>
          match n.push (c :: rest) lexeme with
          | .error fault => .error fault
          | .ok n' => n'.read rest' := by
  rw [read]
  by_cases deep : c = '(' ∧ maxDepth ≤ n.depth
  · rw [if_pos deep, if_pos deep]
  · rw [if_neg deep, if_neg deep]
    split
    · next fault found => rw [found]
    · next lexeme rest' found => rw [found]

end Nesting

structure Pattern where
  text : String
  flags : Flags
  tokens : List Token
deriving Repr

namespace Pattern

def readOnce (text : List Char) (flags : Flags) : Except Fault (List Token × Flags) :=
  match (Nesting.start flags).read text with
  | .error fault => .error fault
  | .ok n =>
    match n.finish with
    | .error fault => .error fault
    | .ok tokens => .ok (tokens, n.global)

/-- A reading with flags that were found asks for another one. -/
def rereads (flags found : Flags) : Bool := found.has .verbose && !flags.has .verbose

def read (text : List Char) (flags : Flags) : Except Fault (List Token × Flags) :=
  match readOnce text flags with
  | .error fault => .error fault
  | .ok (tokens, found) => if rereads flags found then readOnce text found else .ok (tokens, found)

def compile (text : String) (flags : Flags) : Except PatternError Pattern :=
  match read text.toList flags with
  | .error fault => .error (fault.locate text.toList)
  | .ok (tokens, found) => .ok ⟨text, found, tokens⟩

def events (text : String) (flags : Flags) : List Event :=
  match readOnce text.toList flags with
  | .error _ => []
  | .ok (tokens, found) =>
    if rereads flags found then [] else [.parsed text found tokens.length]

end Pattern

end RegexTypeset
