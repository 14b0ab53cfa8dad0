import RegexTypeset.CommandLine.Config
import RegexTypeset.CommandLine.Console
import RegexTypeset.Renderer
import RegexTypeset.Text.Lines

/-! # Running the command line

Each pattern is rendered on its own, in order. A rendering goes to the output, with the
flags of the pattern if they are asked for; an error goes to the error output, and the
run goes on with the next pattern. A write that is refused ends the run. Without
patterns in the configuration, the lines of the input are the patterns.
-/
namespace RegexTypeset

inductive RunError where
  | unreadableInput
  | refused (channel : Channel)
deriving DecidableEq, Repr

def RunError.message : RunError → String
  | unreadableInput => "failed to read patterns from stdin: stream did not contain valid UTF-8"
  | refused .out => "failed to write output: sink is full"
  | refused .err => "failed to write error: sink is full"

abbrev Outcome (α : Type) := Console × Except RunError α

structure Job where
  renderer : Renderer
  flags : Flags
  showFlags : Bool

namespace Job

def render (job : Job) (text : String) : Except RenderError (String × Flags) :=
  match Sample.ofText text job.flags with
  | .error e => .error (.pattern e)
  | .ok sample =>
    match job.renderer.renderSample sample with
    | .error e => .error e
    | .ok rendered => .ok (rendered, sample.flags)

def flagReports (job : Job) (flags : Flags) : List Report :=
  let labels := flags.documented
  if job.showFlags && !labels.isEmpty then [.flags labels] else []

def reports (job : Job) (text : String) : List Report :=
  match job.render text with
  | .ok (rendered, flags) => .rendering rendered :: job.flagReports flags
  | .error e => [.failure text e]

def events (job : Job) (text : String) : List Event :=
  job.renderer.textEvents text job.flags ++
    match job.render text with
    | .ok _ => []
    | .error e => [.failed text e.message]

def runOne (job : Job) (console : Console) (text : String) : Outcome Bool :=
  match (console.logAll (job.events text)).print (job.reports text) with
  | (console, .ok ()) => (console, .ok (job.render text).toBool)
  | (console, .error channel) => (console, .error (.refused channel))

def run (job : Job) (console : Console) : List String → Outcome Bool
  | [] => (console, .ok true)
  | text :: texts =>
    match job.runOne console text with
    | (console, .error e) => (console, .error e)
    | (console, .ok rendered) =>
      match job.run console texts with
      | (console, .error e) => (console, .error e)
      | (console, .ok others) => (console, .ok (rendered && others))

end Job

namespace Config

def patternsOr (config : Config) (input : ByteArray) : Except RunError (List String) :=
  if config.patterns.isEmpty then
    match Lines.read? input with
    | some patterns => .ok patterns
    | none => .error .unreadableInput
  else .ok config.patterns

def job (config : Config) (isTerminal : Bool) : Job :=
  { renderer := .ofTarget (config.effectiveTarget isTerminal) config.strict
    flags := config.flags
    showFlags := config.showFlags }

def run (config : Config) (isTerminal : Bool) (input : ByteArray) (console : Console) :
    Outcome Nat :=
  let target := config.effectiveTarget isTerminal
  let console := console.logAll [.rendering target.name config.strict]
  match config.patternsOr input with
  | .error e => (console, .error e)
  | .ok patterns =>
    match (config.job isTerminal).run console patterns with
    | (console, .error e) => (console, .error e)
    | (console, .ok rendered) => (console, .ok (if rendered then 0 else 1))

end Config

end RegexTypeset
