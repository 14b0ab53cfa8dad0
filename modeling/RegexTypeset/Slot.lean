/-! # Style slots

Each fragment of a rendering belongs to one of nine slots, by the kind of thing that it
shows. A style sheet knows the slots by their names.
-/
namespace RegexTypeset

inductive Slot where
  | anchor
  | group
  | charClass
  | repetition
  | repetitionBrace
  | category
  | alternation
  | literal
  | wildcard
deriving DecidableEq, Repr

namespace Slot

def all : List Slot :=
  [anchor, group, charClass, repetition, repetitionBrace, category, alternation, literal, wildcard]

theorem mem_all (slot : Slot) : slot ∈ all := by
  cases slot <;> decide

def name : Slot → String
  | anchor => "regex_at"
  | group => "regex_subpattern"
  | charClass => "regex_in"
  | repetition => "regex_repeat"
  | repetitionBrace => "regex_repeat_brace"
  | category => "regex_category"
  | alternation => "regex_branch"
  | literal => "regex_literal"
  | wildcard => "regex_any"

def index : Slot → Nat
  | anchor => 0
  | group => 1
  | charClass => 2
  | repetition => 3
  | repetitionBrace => 4
  | category => 5
  | alternation => 6
  | literal => 7
  | wildcard => 8

end Slot

end RegexTypeset
