/-! # Text in TeX

Characters with a meaning of their own in TeX are replaced by a control symbol, by a
control word closed by an empty group, or by the character inside a group.
-/
namespace RegexTypeset.Tex

def escapeChar : Char → List Char
  | '$' => ['\\', '$']
  | '%' => ['\\', '%']
  | '&' => ['\\', '&']
  | '#' => ['\\', '#']
  | '_' => ['\\', '_']
  | '{' => ['\\', '{']
  | '}' => ['\\', '}']
  | '\\' => "\\textbackslash\x7b\x7d".toList
  | '~' => "\\textasciitilde\x7b\x7d".toList
  | '^' => "\\textasciicircum\x7b\x7d".toList
  | '[' => ['{', '[', '}']
  | ']' => ['{', ']', '}']
  | '-' => "\\sphinxhyphen\x7b\x7d".toList
  | '|' => "\\textbar\x7b\x7d".toList
  | '<' => "\\textless\x7b\x7d".toList
  | '>' => "\\textgreater\x7b\x7d".toList
  | c => [c]

def escape (s : String) : String := String.ofList (s.toList.flatMap escapeChar)

end RegexTypeset.Tex
