/-! # Text in HTML

The four characters that HTML text cannot hold as they are become entities.
-/
namespace RegexTypeset.Html

def escapeChar : Char → List Char
  | '&' => "&amp;".toList
  | '<' => "&lt;".toList
  | '>' => "&gt;".toList
  | '"' => "&quot;".toList
  | c => [c]

def escape (s : String) : String := String.ofList (s.toList.flatMap escapeChar)

end RegexTypeset.Html
