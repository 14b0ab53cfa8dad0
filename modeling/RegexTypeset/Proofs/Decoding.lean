import Mathlib.Data.List.Infix
import RegexTypeset.Markup.Html
import RegexTypeset.Markup.Tex

/-! # Decoding

A text is decoded from left to right: where a sign starts, its meaning stands for it, and
all else stays. Signs that are listed can be told apart if none is the start of another
one. Both ways of escaping use such signs, so an escaped text is decoded to itself.
-/
namespace RegexTypeset

/-- Whether a text starts with a sign: the number of characters that the sign takes after its
first one, and what it stands for. -/
abbrev SignReader := List Char → Option (Nat × List Char)

def decode (sign? : SignReader) : List Char → List Char
  | [] => []
  | c :: rest =>
    match sign? (c :: rest) with
    | none => c :: decode sign? rest
    | some (more, meaning) => meaning ++ decode sign? (rest.drop more)
termination_by text => text.length
decreasing_by
  · simp
  · simp only [List.length_drop, List.length_cons]
    omega

variable {sign? : SignReader} {c : Char} {taken rest meaning : List Char}

@[simp] theorem decode_nil : decode sign? [] = [] := by
  rw [decode]

theorem decode_cons_of_none (h : sign? (c :: rest) = none) :
    decode sign? (c :: rest) = c :: decode sign? rest := by
  rw [decode, h]

theorem decode_cons_of_some (h : sign? (c :: (taken ++ rest)) = some (taken.length, meaning)) :
    decode sign? (c :: (taken ++ rest)) = meaning ++ decode sign? rest := by
  rw [decode, h]
  simp only [List.drop_left]

/-- What is decoded part by part is decoded as a whole. -/
theorem decode_flatMap {α : Type} {written meant : α → List Char} {items : List α}
    (h : ∀ a ∈ items, ∀ rest, decode sign? (written a ++ rest) = meant a ++ decode sign? rest)
    (rest : List Char) :
    decode sign? (items.flatMap written ++ rest) = items.flatMap meant ++ decode sign? rest := by
  induction items with
  | nil => rfl
  | cons a items ih =>
    have hi := ih fun b hb => h b (List.mem_cons_of_mem _ hb)
    rw [List.flatMap_cons, List.flatMap_cons, List.append_assoc, h a List.mem_cons_self, hi,
      List.append_assoc]

theorem decode_append_of_none {text : List Char} (h : ∀ c ∈ text, ∀ rest, sign? (c :: rest) = none)
    (rest : List Char) : decode sign? (text ++ rest) = text ++ decode sign? rest := by
  have hd : decode sign? (text.flatMap (fun c => [c]) ++ rest) =
      text.flatMap (fun c => [c]) ++ decode sign? rest :=
    decode_flatMap (fun c hc rest => decode_cons_of_none (h c hc rest)) rest
  rwa [List.flatMap_singleton'] at hd

structure Code where
  first : Char
  more : List Char
  meaning : List Char
deriving DecidableEq

namespace Code

def sign (code : Code) : List Char := code.first :: code.more

def reader (codes : List Code) : SignReader := fun text =>
  (codes.find? fun code => code.sign.isPrefixOf text).map fun code =>
    (code.more.length, code.meaning)

/-- No sign of the list is the start of another one. -/
def PrefixFree (codes : List Code) : Prop :=
  ∀ a ∈ codes, ∀ b ∈ codes, a.sign <+: b.sign → a = b

instance (codes : List Code) : Decidable (PrefixFree codes) :=
  inferInstanceAs (Decidable (∀ a ∈ codes, ∀ b ∈ codes, a.sign <+: b.sign → a = b))

variable {codes : List Code} {code : Code}

theorem find_sign (hp : PrefixFree codes) (h : code ∈ codes) (rest : List Char) :
    codes.find? (fun other => other.sign.isPrefixOf (code.sign ++ rest)) = some code := by
  have hs : ∃ other ∈ codes, other.sign.isPrefixOf (code.sign ++ rest) = true :=
    ⟨code, h, List.isPrefixOf_iff_prefix.mpr (List.prefix_append _ _)⟩
  obtain ⟨found, hf⟩ := Option.isSome_iff_exists.mp (List.find?_isSome.mpr hs)
  have hmem : found ∈ codes := List.mem_of_find?_eq_some hf
  have hpre : found.sign <+: code.sign ++ rest := by simpa using List.find?_some hf
  -- two signs at the same place: one starts the other
  have he : found = code := by
    rcases List.prefix_or_prefix_of_prefix hpre (List.prefix_append code.sign rest) with hl | hl
    · exact hp found hmem code h hl
    · exact (hp code h found hmem hl).symm
  rw [hf, he]

theorem decode_sign (hp : PrefixFree codes) (h : code ∈ codes) (rest : List Char) :
    decode (reader codes) (code.sign ++ rest) = code.meaning ++ decode (reader codes) rest := by
  apply decode_cons_of_some
  have hf := find_sign hp h rest
  rw [sign, List.cons_append] at hf
  rw [reader, hf]
  rfl

theorem reader_eq_none (h : ∀ code ∈ codes, code.first ≠ c) (rest : List Char) :
    reader codes (c :: rest) = none := by
  have hf : codes.find? (fun code => code.sign.isPrefixOf (c :: rest)) = none := by
    rw [List.find?_eq_none]
    intro code hc hp
    obtain ⟨more, hm⟩ := List.isPrefixOf_iff_prefix.mp hp
    exact h code hc (List.cons.inj hm).1
  rw [reader, hf]
  rfl

/-- An escaped text is decoded to the text, if each character is written as the sign for it or
else as itself and starts no sign. -/
theorem decode_escaped (hp : PrefixFree codes) {escapeChar : Char → List Char}
    (h : ∀ c, (∃ code ∈ codes, code.sign = escapeChar c ∧ code.meaning = [c]) ∨
      escapeChar c = [c] ∧ ∀ code ∈ codes, code.first ≠ c) (text rest : List Char) :
    decode (reader codes) (text.flatMap escapeChar ++ rest) = text ++ decode (reader codes) rest := by
  have hd : decode (reader codes) (text.flatMap escapeChar ++ rest) =
      text.flatMap (fun c => [c]) ++ decode (reader codes) rest := by
    refine decode_flatMap (fun c _ rest => ?_) rest
    rcases h c with ⟨code, hc, hs, hm⟩ | ⟨he, hn⟩
    · rw [← hs, ← hm]
      exact decode_sign hp hc rest
    · rw [he]
      exact decode_cons_of_none (reader_eq_none hn rest)
  rwa [List.flatMap_singleton'] at hd

end Code

namespace Html

def entities : List Code :=
  [⟨'&', "amp;".toList, ['&']⟩, ⟨'&', "lt;".toList, ['<']⟩, ⟨'&', "gt;".toList, ['>']⟩,
   ⟨'&', "quot;".toList, ['"']⟩]

def unescape (text : List Char) : List Char := decode (Code.reader entities) text

theorem prefixFree_entities : Code.PrefixFree entities := by decide

theorem cases_of_escapeChar (c : Char) :
    (∃ code ∈ entities, code.sign = escapeChar c ∧ code.meaning = [c]) ∨
      escapeChar c = [c] ∧ c ∉ ['&', '<', '>', '"'] := by
  unfold escapeChar
  split
  case h_5 => exact Or.inr ⟨rfl, by simp_all⟩
  all_goals exact Or.inl (by decide)

theorem unescape_append_escape (text rest : List Char) :
    unescape (text.flatMap escapeChar ++ rest) = text ++ unescape rest := by
  refine Code.decode_escaped prefixFree_entities (fun c => ?_) text rest
  refine (cases_of_escapeChar c).imp_right fun ⟨he, hc⟩ => ⟨he, fun code hm hf => hc ?_⟩
  have hall : ∀ code ∈ entities, code.first ∈ ['&', '<', '>', '"'] := by decide
  exact hf ▸ hall code hm

end Html

namespace Tex

def replacements : List Code :=
  [⟨'\\', ['$'], ['$']⟩, ⟨'\\', ['%'], ['%']⟩, ⟨'\\', ['&'], ['&']⟩, ⟨'\\', ['#'], ['#']⟩,
   ⟨'\\', ['_'], ['_']⟩, ⟨'\\', ['{'], ['{']⟩, ⟨'\\', ['}'], ['}']⟩,
   ⟨'\\', "textbackslash\x7b\x7d".toList, ['\\']⟩, ⟨'\\', "textasciitilde\x7b\x7d".toList, ['~']⟩,
   ⟨'\\', "textasciicircum\x7b\x7d".toList, ['^']⟩, ⟨'{', ['[', '}'], ['[']⟩, ⟨'{', [']', '}'], [']']⟩,
   ⟨'\\', "sphinxhyphen\x7b\x7d".toList, ['-']⟩, ⟨'\\', "textbar\x7b\x7d".toList, ['|']⟩,
   ⟨'\\', "textless\x7b\x7d".toList, ['<']⟩, ⟨'\\', "textgreater\x7b\x7d".toList, ['>']⟩]

theorem cases_of_escapeChar (c : Char) :
    (∃ code ∈ replacements, code.sign = escapeChar c ∧ code.meaning = [c]) ∨
      escapeChar c = [c] ∧ c ∉ ['\\', '{', '}'] := by
  unfold escapeChar
  split
  case h_17 => exact Or.inr ⟨rfl, by simp_all⟩
  all_goals exact Or.inl (by decide)

/-- Signs beside the replacements do no harm, as long as no character as it is starts one. -/
theorem decode_append_escape {codes : List Code} (hp : Code.PrefixFree codes)
    (hs : replacements ⊆ codes) (hf : ∀ code ∈ codes, code.first ∈ ['\\', '{', '}'])
    (text rest : List Char) :
    decode (Code.reader codes) (text.flatMap escapeChar ++ rest) =
      text ++ decode (Code.reader codes) rest := by
  refine Code.decode_escaped hp (fun c => ?_) text rest
  rcases cases_of_escapeChar c with ⟨code, hc, he⟩ | ⟨he, hc⟩
  · exact Or.inl ⟨code, hs hc, he⟩
  · exact Or.inr ⟨he, fun code hm hd => hc (hd ▸ hf code hm)⟩

end Tex

end RegexTypeset
