import RegexTypeset.EdgeSpaces
import RegexTypeset.Pattern

/-! # Samples

A sample is a pattern whose edge spaces are cut off and counted. They are measured on
the text first; where the text shows none, and in a verbose pattern, whose blanks mean
nothing, they are measured on the tokens. Each edge is decided on its own.
-/
namespace RegexTypeset

structure Sample where
  tokens : List Token
  spaces : EdgeSpaces
  flags : Flags
deriving Repr

namespace Sample

def spellTabs (text : List Char) : List Char :=
  text.flatMap fun c => if c = '\t' then ['\\', 't'] else [c]

def body (text : String) : String :=
  let spelled := spellTabs text.toList
  String.ofList ((EdgeSpaces.ofText spelled).cut spelled)

/-- The spaces that a text shows at its edges. A verbose pattern shows none. -/
def shown (text : String) (flags : Flags) : EdgeSpaces :=
  if flags.has .verbose then .none else .ofText (spellTabs text.toList)

/-- The edge spaces among the tokens, for the edges where the text shows none. -/
def hidden (shown : EdgeSpaces) (tokens : List Token) : EdgeSpaces :=
  let found := EdgeSpaces.ofTokens tokens
  ⟨if shown.leading = 0 then found.leading else 0,
    if shown.trailing = 0 then found.trailing else 0⟩

def ofPattern (pattern : Pattern) (shown : EdgeSpaces) : Sample :=
  let hidden := hidden shown pattern.tokens
  { tokens := hidden.cut pattern.tokens
    spaces := ⟨shown.leading + hidden.leading, shown.trailing + hidden.trailing⟩
    flags := pattern.flags }

def ofText (text : String) (flags : Flags) : Except PatternError Sample :=
  match Pattern.compile (body text) flags with
  | .error e => .error e
  | .ok pattern => .ok (ofPattern pattern (shown text pattern.flags))

def events (text : String) (flags : Flags) : List Event :=
  Pattern.events (body text) flags ++
    match ofText text flags with
    | .error _ => []
    | .ok sample => [.extracted sample.spaces.leading sample.spaces.trailing]

end Sample

end RegexTypeset
