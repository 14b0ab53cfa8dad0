import RegexTypeset.Renderer

/-! # Console

A run of the command line prints reports: renderings and lists of flags to the output,
failures to the error output. A report reaches its channel in portions, which are written
one after the other. A sink may accept a limited number of bytes; a write that would pass
the limit is refused as a whole. The events of the run are kept beside the sinks.
-/
namespace RegexTypeset

inductive Channel where
  | out
  | err
deriving DecidableEq, Repr

inductive Report where
  | rendering (text : String)
  | flags (labels : String)
  | failure (pattern : String) (e : RenderError)
deriving DecidableEq, Repr

namespace Report

def channel : Report → Channel
  | rendering _ | flags _ => .out
  | failure _ _ => .err

def text : Report → String
  | rendering text => text ++ "\n"
  | flags labels => "Flags: " ++ labels ++ "\n"
  | failure pattern e => Quoted.string pattern ++ ": " ++ e.message ++ "\n"

end Report

structure Write where
  channel : Channel
  text : String
deriving DecidableEq, Repr

/-- The way in which reports are cut into portions. How many there are is up to what formats
them; together they are the report. -/
structure Delivery where
  portions : Report → List String
  join_portions : ∀ report, String.join (portions report) = report.text

namespace Delivery

def whole : Delivery :=
  ⟨fun report => [report.text], fun report => by simp [String.join]⟩

def writes (delivery : Delivery) (report : Report) : List Write :=
  (delivery.portions report).map (Write.mk report.channel)

end Delivery

structure Sink where
  limit : Option Nat
  written : String
deriving DecidableEq, Repr

namespace Sink

def ofLimit (limit : Option Nat) : Sink := ⟨limit, ""⟩

def write? (sink : Sink) (text : String) : Option Sink :=
  let written := sink.written ++ text
  if sink.limit.all (written.utf8ByteSize ≤ ·) then some { sink with written := written }
  else none

end Sink

structure Sinks where
  out : Sink
  err : Sink
deriving DecidableEq, Repr

namespace Sinks

def sink (sinks : Sinks) : Channel → Sink
  | .out => sinks.out
  | .err => sinks.err

def write? (sinks : Sinks) (write : Write) : Option Sinks :=
  match write.channel with
  | .out => (sinks.out.write? write.text).map fun out => { sinks with out := out }
  | .err => (sinks.err.write? write.text).map fun err => { sinks with err := err }

def writeAll (sinks : Sinks) : List Write → Sinks × Except Channel Unit
  | [] => (sinks, .ok ())
  | write :: writes =>
    match sinks.write? write with
    | some sinks => sinks.writeAll writes
    | none => (sinks, .error write.channel)

end Sinks

structure Console extends Sinks where
  log : List Event
  delivery : Delivery

namespace Console

def start (outLimit errLimit : Option Nat) : Console :=
  ⟨⟨.ofLimit outLimit, .ofLimit errLimit⟩, [], .whole⟩

def logAll (console : Console) (events : List Event) : Console :=
  { console with log := console.log ++ events }

def print (console : Console) (reports : List Report) : Console × Except Channel Unit :=
  match console.toSinks.writeAll (reports.flatMap console.delivery.writes) with
  | (sinks, result) => ({ console with toSinks := sinks }, result)

end Console

end RegexTypeset
