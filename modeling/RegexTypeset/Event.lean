import RegexTypeset.Flags
import RegexTypeset.Token

/-! # Events

What the library does can be followed in a log. An event has a level, a message, and
fields with a name and a text each.
-/
namespace RegexTypeset

inductive Level where
  | trace
  | debug
  | info
  | warn
  | error
deriving DecidableEq, Repr

def Level.name : Level → String
  | trace => "TRACE"
  | debug => "DEBUG"
  | info => "INFO"
  | warn => "WARN"
  | error => "ERROR"

inductive Event where
  /-- A pattern was read with the given flags into some number of tokens. -/
  | parsed (pattern : String) (flags : Flags) (count : Nat)
  /-- Spaces at the edges of a pattern were measured and cut off. -/
  | extracted (leading trailing : Nat)
  | leftOut (construct : Construct)
  /-- Patterns are about to be rendered for a target. -/
  | rendering (target : String) (strict : Bool)
  | failed (pattern error : String)
deriving DecidableEq, Repr

namespace Event

def level : Event → Level
  | parsed .. => .trace
  | leftOut _ => .warn
  | extracted .. | rendering .. | failed .. => .debug

def message : Event → String
  | parsed .. => "parsed pattern"
  | extracted .. => "extracted edge spaces"
  | leftOut _ => "leaving out a construct with no rendering"
  | rendering .. => "rendering"
  | failed .. => "failed to render"

def fields : Event → List (String × String)
  | parsed pattern flags count =>
    [("pattern", pattern), ("flags", toString flags.bits.toNat), ("count", toString count)]
  | extracted leading trailing =>
    [("leading", toString leading), ("trailing", toString trailing)]
  | leftOut construct => [("construct", construct.name)]
  | rendering target strict => [("target", target), ("strict", if strict then "true" else "false")]
  | failed pattern error => [("pattern", pattern), ("error", error)]

end Event

end RegexTypeset
