import RegexTypeset.Event
import RegexTypeset.Target

/-! # Configuration

What a user of the command line chooses: the patterns, the target and its colours, the
flags to read the patterns with, and what is printed and logged.
-/
namespace RegexTypeset

inductive ColorWhen where
  | always
  | never
  | auto
deriving DecidableEq, Repr

namespace ColorWhen

def name : ColorWhen → String
  | always => "always"
  | never => "never"
  | auto => "auto"

def applies (isTerminal : Bool) : ColorWhen → Bool
  | always => true
  | never => false
  | auto => isTerminal

end ColorWhen

inductive LogFilter where
  | off
  | error
  | warn
  | info
  | debug
  | trace
deriving DecidableEq, Repr

namespace LogFilter

def name : LogFilter → String
  | off => "off"
  | error => "error"
  | warn => "warn"
  | info => "info"
  | debug => "debug"
  | trace => "trace"

def admits : LogFilter → Level → Bool
  | off, _ => false
  | error, level => level = .error
  | warn, level => level = .error ∨ level = .warn
  | info, level => level = .error ∨ level = .warn ∨ level = .info
  | debug, level => level ≠ .trace
  | trace, _ => true

end LogFilter

structure Config where
  patterns : List String
  target : Target
  flags : Flags
  showFlags : Bool
  strict : Bool
  color : ColorWhen
  logFilter : Option LogFilter
deriving Repr

/-- The target that is used: without colour, a terminal gets plain text. -/
def Config.effectiveTarget (config : Config) (isTerminal : Bool) : Target :=
  match config.target with
  | .terminal => if config.color.applies isTerminal then .terminal else .plain
  | target => target

end RegexTypeset
