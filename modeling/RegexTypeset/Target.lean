import RegexTypeset.Markup.Html
import RegexTypeset.Markup.Tex
import RegexTypeset.Palette
import RegexTypeset.Text.Quoted

/-! # Targets

Renderings are made as plain text, in HTML, in LaTeX or for a terminal. Each target has
a palette and can be chosen by name.
-/
namespace RegexTypeset

inductive Target where
  | plain
  | html
  | latex
  | terminal
deriving DecidableEq, Repr

namespace Palette

def plain : Palette := uniform id

def span (slot : Slot) (raw : String) : String :=
  "<span class=\"regex " ++ slot.name ++ "\">" ++ Html.escape raw ++ "</span>"

def html : Palette :=
  (ofSlots span).withWrap fun body =>
    "\n<code class=\"docutils literal notranslate regex\">\n" ++ body ++ "\n</code>\n"

/-- A fragment in the colour with the name of its slot; a space is given a fixed width. -/
def textColor (slot : Slot) (raw : String) : String :=
  if raw = " " then "\\enspace"
  else "\\textcolor\x7b" ++ slot.name ++ "\x7d\x7b" ++ Tex.escape raw ++ "\x7d"

def latex : Palette :=
  (ofSlots textColor).withWrap fun body =>
    "\\sphinxcode\x7b\\sphinxupquote\x7b" ++ body ++ "\x7d\x7d"

def colored (code : String) (raw : String) : String :=
  "\x1b[" ++ code ++ "m" ++ raw ++ "\x1b[39m"

def terminalColor : Slot → String
  | .group => "93"
  | .charClass => "91"
  | .repetition => "94"
  | .literal => "32"
  | _ => "33"

/-- Five colours; slots of the same colour as anchors or groups share their style. -/
def terminal : Palette :=
  ((((ofSlots fun slot => colored (terminalColor slot)).share .repetitionBrace .anchor).share
    .alternation .anchor).share .wildcard .anchor).share .category .group

end Palette

structure UnknownTarget where
  name : String
deriving DecidableEq, Repr

def UnknownTarget.message (e : UnknownTarget) : String :=
  "unknown target " ++ Quoted.string e.name

namespace Target

def palette : Target → Palette
  | plain => .plain
  | html => .html
  | latex => .latex
  | terminal => .terminal

def name : Target → String
  | plain => "plain"
  | html => "html"
  | latex => "latex"
  | terminal => "terminal"

def ofName (name : String) : Except UnknownTarget Target :=
  match name.toLower with
  | "plain" | "text" => .ok plain
  | "html" => .ok html
  | "latex" | "tex" => .ok latex
  | "terminal" | "ansi" => .ok terminal
  | other => .error ⟨other⟩

end Target

end RegexTypeset
