import RegexTypeset.Text.Bytes

/-! # Brace counts

A brace count is one of `{m}`, `{m,}`, `{,n}`, `{m,n}` and `{,}`, its numbers written
in decimal digits. Braces around anything else are no count. The bounds that a count
stands for are words of 32 bits.
-/
namespace RegexTypeset

/-- The digits of a count, as written. Without a comma there is no upper number. -/
structure Count where
  low : List Char
  high : Option (List Char)
deriving DecidableEq, Repr

namespace Count

def numbers (text : List Char) : Count × List Char :=
  let low := text.takeWhile Char.isDigit
  match text.dropWhile Char.isDigit with
  | ',' :: after => (⟨low, some (after.takeWhile Char.isDigit)⟩, after.dropWhile Char.isDigit)
  | after => (⟨low, none⟩, after)

/-- A count at the start of a text, and the number of bytes that it takes. -/
def scan? (text : List Char) : Option (Nat × Count) :=
  match text with
  | '{' :: after =>
    let (count, rest) := numbers after
    if rest.head? ≠ some '}' ∨ count = ⟨[], none⟩ then none
    else some (byteLength text - byteLength rest + 1, count)
  | _ => none

/-- A count takes its brace at least, so what is left of the text is an end of what is behind. -/
theorem suffix_of_scan? {c : Char} {text : List Char} {n : Nat} {count : Count}
    (h : scan? (c :: text) = some (n, count)) : (c :: text).drop n <:+ text := by
  have hn : 0 < n := by
    unfold scan? at h
    split at h
    case h_1 =>
      dsimp only at h
      split at h
      case isTrue => cases h
      case isFalse => cases h; exact Nat.succ_pos _
    case h_2 => cases h
  obtain ⟨m, rfl⟩ := Nat.exists_eq_add_of_lt hn
  rw [Nat.zero_add, List.drop_succ_cons]
  exact List.drop_suffix m text

def value (digits : List Char) : Nat :=
  digits.foldl (fun n d => 10 * n + (d.toNat - '0'.toNat)) 0

def word? (digits : List Char) : Option UInt32 :=
  if value digits < UInt32.size then some (UInt32.ofNat (value digits)) else none

/-- The least and the greatest number of repetitions. A count without a comma bounds both
sides; nothing after the comma leaves the number unbounded. There are no bounds when a
number does not fit a word or the upper one is below the lower one. -/
def bounds? (count : Count) : Option (UInt32 × Option UInt32) := do
  let min ← word? count.low
  match count.high with
  | none => some (min, some min)
  | some [] => some (min, none)
  | some digits =>
    let max ← word? digits
    if max < min then none else some (min, some max)

end Count

end RegexTypeset
