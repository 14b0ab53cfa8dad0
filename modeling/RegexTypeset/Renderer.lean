import RegexTypeset.Piece
import RegexTypeset.Sample
import RegexTypeset.Target

/-! # Rendering

A renderer shows the pieces of a token tree in the styles of its palette. A malformed
node is an error. A construct with no rendering is left out and logged, or is an error
too if the renderer is strict. The first error ends the rendering.
-/
namespace RegexTypeset

inductive RenderError where
  | pattern (e : PatternError)
  | unrendered (construct : Construct)
  | malformed (defect : Defect)
deriving DecidableEq, Repr

def RenderError.message : RenderError → String
  | pattern e => e.message
  | unrendered construct => "cannot render " ++ construct.name
  | malformed defect => "malformed token tree: " ++ defect.message

namespace Piece

def error? (strict : Bool) : Piece → Option RenderError
  | text _ _ => none
  | leftOut construct => if strict then some (.unrendered construct) else none
  | malformed defect => some (.malformed defect)

def styled (palette : Palette) : Piece → String
  | text slot raw => palette.style slot raw
  | _ => ""

def event? : Piece → Option Event
  | leftOut construct => some (.leftOut construct)
  | _ => none

end Piece

namespace Sample

def leadingPieces : Nat → List Piece
  | 0 => []
  | 1 => Piece.bracketedSpace
  | n => Piece.bracketedSpace ++ Piece.count n

def trailingPieces : Nat → List Piece
  | 0 => []
  | 1 => Piece.bracketedSpace
  | n => .text .literal " " :: Piece.count n

def pieces (sample : Sample) : List Piece :=
  leadingPieces sample.spaces.leading ++ Token.listPieces sample.tokens ++
    trailingPieces sample.spaces.trailing

end Sample

structure Renderer where
  palette : Palette
  strict : Bool

namespace Renderer

def ofTarget (target : Target) (strict : Bool) : Renderer := ⟨target.palette, strict⟩

def renderPieces (r : Renderer) (pieces : List Piece) : Except RenderError String :=
  match pieces.findSome? (Piece.error? r.strict) with
  | some e => .error e
  | none => .ok (r.palette.wrap (String.join (pieces.map (Piece.styled r.palette))))

/-- What is left out is logged up to the first error. -/
def pieceEvents (r : Renderer) (pieces : List Piece) : List Event :=
  (pieces.takeWhile fun piece => (piece.error? r.strict).isNone).filterMap Piece.event?

def renderTokens (r : Renderer) (tokens : List Token) : Except RenderError String :=
  r.renderPieces (Token.listPieces tokens)

def tokenEvents (r : Renderer) (tokens : List Token) : List Event :=
  r.pieceEvents (Token.listPieces tokens)

def renderSample (r : Renderer) (sample : Sample) : Except RenderError String :=
  r.renderPieces sample.pieces

def sampleEvents (r : Renderer) (sample : Sample) : List Event := r.pieceEvents sample.pieces

def renderText (r : Renderer) (text : String) (flags : Flags) : Except RenderError String :=
  match Sample.ofText text flags with
  | .error e => .error (.pattern e)
  | .ok sample => r.renderSample sample

def textEvents (r : Renderer) (text : String) (flags : Flags) : List Event :=
  Sample.events text flags ++
    match Sample.ofText text flags with
    | .error _ => []
    | .ok sample => r.sampleEvents sample

def renderPattern (r : Renderer) (pattern : Pattern) : Except RenderError String :=
  r.renderText pattern.text pattern.flags

def patternEvents (r : Renderer) (pattern : Pattern) : List Event :=
  r.textEvents pattern.text pattern.flags

/-- Render a text, then what came out of it, and so on: at most the given number of times,
and until an error or a text that comes out unchanged. Each text stands with its result. -/
def rerender (r : Renderer) (flags : Flags) :
    Nat → String → List (String × Except RenderError String)
  | 0, _ => []
  | n + 1, text =>
    match r.renderText text flags with
    | .error e => [(text, .error e)]
    | .ok out => (text, .ok out) :: if out = text then [] else r.rerender flags n out

end Renderer

end RegexTypeset
