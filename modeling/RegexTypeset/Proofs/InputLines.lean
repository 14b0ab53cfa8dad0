import RegexTypeset.CommandLine.Run

/-! # Patterns from the input

A line break is one byte in UTF-8, which is part of no other character, and so is a carriage
return. So texts that are written one on a line are read back from the input, and a run on
them is the run with these texts as its patterns. All lines are read before the first
pattern is treated: an input with a line that is no text leaves the channels as they are.
-/
namespace RegexTypeset

/-- A byte below 128 is the whole encoding of the character that has it as its code. -/
theorem utf8EncodeChar_of_mem {c : Char} {byte : UInt8} (hb : byte < 128)
    (h : byte ∈ String.utf8EncodeChar c) :
    String.utf8EncodeChar c = [byte] ∧ c.toNat = byte.toNat := by
  have hlow : byte.toNat < 128 := UInt8.lt_iff_toNat_lt.mp hb
  unfold String.utf8EncodeChar at h ⊢
  rw [show c.val.toNat = c.toNat from rfl] at h ⊢
  dsimp only at h ⊢
  split at h
  case isTrue hc =>
    obtain rfl := List.mem_singleton.mp h
    rw [if_pos hc, UInt8.toNat_ofNat']
    exact ⟨rfl, by omega⟩
  case isFalse =>
    -- every byte of a longer encoding has its highest bit set
    exfalso
    repeat' split at h
    all_goals
      simp only [List.mem_cons, List.not_mem_nil, or_false, ← UInt8.toNat_inj,
        UInt8.toNat_ofNat'] at h
      omega

namespace Lines

def bytes (text : String) : List UInt8 := text.toUTF8.data.toList

theorem bytes_ofList (text : List Char) :
    bytes (String.ofList text) = text.flatMap String.utf8EncodeChar := by
  simp [bytes, List.utf8Encode]

theorem bytes_append (s t : String) : bytes (s ++ t) = bytes s ++ bytes t := by
  simp [bytes]

theorem decode?_bytes (text : String) : decode? (bytes text) = some text := by
  have h : (⟨(bytes text).toArray⟩ : ByteArray) = text.toByteArray := rfl
  rw [decode?, h, String.fromUTF8?, dif_pos text.isValidUTF8]
  rfl

/-- A line break in the bytes of a text is one in the text. -/
theorem newline_of_mem_bytes {text : List Char} (h : 10 ∈ bytes (String.ofList text)) :
    '\n' ∈ text := by
  rw [bytes_ofList, List.mem_flatMap] at h
  obtain ⟨c, hc, hb⟩ := h
  have hn : c.toNat = '\n'.toNat := (utf8EncodeChar_of_mem (by decide) hb).2
  rwa [← Char.toNat_inj.mp hn]

/-- A carriage return at the end of the bytes of a text is one at the end of the text. -/
theorem return_of_getLast?_bytes {text : List Char}
    (h : (bytes (String.ofList text)).getLast? = some 13) : text.getLast? = some '\r' := by
  rw [bytes_ofList] at h
  rcases List.eq_nil_or_concat text with rfl | ⟨front, c, rfl⟩
  · cases h
  · rw [List.concat_eq_append, List.flatMap_append, List.flatMap_singleton, List.getLast?_append,
      List.getLast?_eq_some_getLast String.utf8EncodeChar_ne_nil, Option.some_or] at h
    have hb : 13 ∈ String.utf8EncodeChar c := Option.some.inj h ▸ List.getLast_mem _
    have hc : c.toNat = '\r'.toNat := (utf8EncodeChar_of_mem (by decide) hb).2
    rw [Char.toNat_inj.mp hc, List.concat_eq_append, List.getLast?_concat]

def ofTexts (texts : List String) : ByteArray := (String.join (texts.map (· ++ "\n"))).toUTF8

theorem splitFrom_cons {byte : UInt8} (h : byte ≠ 10) (current rest : List UInt8) :
    splitFrom current (byte :: rest) = splitFrom (byte :: current) rest := by
  rw [splitFrom]
  exact h

theorem splitFrom_append {run : List UInt8} (h : 10 ∉ run) (current rest : List UInt8) :
    splitFrom current (run ++ rest) = splitFrom (run.reverse ++ current) rest := by
  induction run generalizing current with
  | nil => rfl
  | cons byte run ih =>
    simp only [List.mem_cons, not_or] at h
    rw [List.cons_append, splitFrom_cons (Ne.symm h.1), ih h.2]
    simp

/-- Bytes up to a line break are a line, without a carriage return at their end. -/
theorem split_line {line : List UInt8} (h : 10 ∉ line) (rest : List UInt8) :
    split (line ++ 10 :: rest) = ended line.reverse :: split rest := by
  rw [split, splitFrom_append h, List.append_nil, splitFrom]
  rfl

theorem ended_of_getLast? {line : List UInt8} (h : line.getLast? ≠ some 13) :
    ended line.reverse = line := by
  unfold ended
  split
  case h_1 rest he =>
    rw [List.getLast?_eq_head?_reverse, he] at h
    exact absurd rfl h
  case h_2 => exact line.reverse_reverse

/-- Texts without line breaks, and without a carriage return at the end of one, are read back. -/
theorem read?_ofTexts {texts : List String}
    (h : ∀ text ∈ texts, '\n' ∉ text.toList ∧ text.toList.getLast? ≠ some '\r') :
    read? (ofTexts texts) = some texts := by
  have hs : split (bytes (String.join (texts.map (· ++ "\n")))) = texts.map bytes := by
    induction texts with
    | nil => rfl
    | cons text texts ih =>
      obtain ⟨⟨hn, hr⟩, ht⟩ := List.forall_mem_cons.mp h
      have hline : 10 ∉ bytes text := fun hm => hn (newline_of_mem_bytes (by simpa using hm))
      have hend : (bytes text).getLast? ≠ some 13 := fun hm =>
        hr (return_of_getLast?_bytes (by simpa using hm))
      have hbreak : bytes "\n" = [10] := by decide
      rw [List.map_cons, String.join_cons, bytes_append, bytes_append, hbreak, List.append_assoc,
        List.singleton_append, split_line hline, ended_of_getLast? hend, ih ht, List.map_cons]
  have hd : (texts.map bytes).mapM decode? = some texts := by
    rw [List.mapM_map]
    simpa [Function.comp_def, decode?_bytes] using List.mapM_pure (m := Option) (l := texts) (f := id)
  rw [read?]
  exact (congrArg (List.mapM decode?) hs).trans hd

/-- Bytes without a line break that stand between two of them, or at an end of the input. A
carriage return before a line break still belongs to these bytes. -/
def IsLine (line input : List UInt8) : Prop :=
  10 ∉ line ∧ ∃ before after, input = before ++ line ++ after ∧
    (before = [] ∨ before.getLast? = some 10) ∧ (after = [] ∨ after.head? = some 10)

theorem splitFrom_newline (current before rest : List UInt8) :
    splitFrom current (before ++ 10 :: rest) = splitFrom current (before ++ [10]) ++ split rest := by
  induction before generalizing current with
  | nil => rfl
  | cons byte before ih =>
    by_cases hb : byte = 10
    · subst hb
      simp [splitFrom, ih]
    · rw [List.cons_append, List.cons_append, splitFrom_cons hb, splitFrom_cons hb, ih]

theorem ended_reverse (line : List UInt8) :
    ended line.reverse = line ∨ ended line.reverse ++ [13] = line := by
  by_cases h : line.getLast? = some 13
  · obtain ⟨front, rfl⟩ := List.getLast?_eq_some_iff.mp h
    exact .inr (by simp [ended])
  · exact .inl (ended_of_getLast? h)

/-- A line that is not empty is one of those that are split off, up to a carriage return. -/
theorem IsLine.exists_mem_split {line input : List UInt8} (h : IsLine line input) (hne : line ≠ []) :
    ∃ part ∈ split input, part = line ∨ part ++ [13] = line := by
  obtain ⟨hn, before, after, rfl, hbefore, hafter⟩ := h
  have here : ∃ part ∈ split (line ++ after), part = line ∨ part ++ [13] = line := by
    rcases hafter with rfl | hafter
    · refine ⟨line, ?_, .inl rfl⟩
      rw [split, splitFrom_append hn]
      simp [splitFrom, hne]
    · obtain ⟨later, rfl⟩ := List.head?_eq_some_iff.mp hafter
      exact ⟨_, by rw [split_line hn]; exact List.mem_cons_self, ended_reverse line⟩
  rw [List.append_assoc]
  rcases hbefore with rfl | hbefore
  · exact here
  · obtain ⟨earlier, rfl⟩ := List.getLast?_eq_some_iff.mp hbefore
    obtain ⟨part, hm, hp⟩ := here
    refine ⟨part, ?_, hp⟩
    rw [List.append_assoc, List.singleton_append, split, splitFrom_newline]
    exact List.mem_append_right _ hm

theorem decode?_eq_none {line : List UInt8} (h : ¬ (⟨line.toArray⟩ : ByteArray).IsValidUTF8) :
    decode? line = none := dif_neg h

/-- A carriage return does not make bytes a text. -/
theorem not_valid_of_return {line : List UInt8}
    (h : ¬ (⟨(line ++ [13]).toArray⟩ : ByteArray).IsValidUTF8) :
    ¬ (⟨line.toArray⟩ : ByteArray).IsValidUTF8 := by
  intro hl
  have hr : (⟨#[13]⟩ : ByteArray).IsValidUTF8 := "\r".isValidUTF8
  refine h ?_
  have he : (⟨(line ++ [13]).toArray⟩ : ByteArray) = ⟨line.toArray⟩ ++ ⟨#[13]⟩ := by
    ext1
    simp
  rw [he]
  exact hl.append hr

/-- One line that is no text is enough for the input not to be read. -/
theorem read?_eq_none {line : List UInt8} {input : ByteArray} (h : IsLine line input.data.toList)
    (hl : ¬ (⟨line.toArray⟩ : ByteArray).IsValidUTF8) : read? input = none := by
  have hne : line ≠ [] := by
    rintro rfl
    exact hl ByteArray.isValidUTF8_empty
  obtain ⟨part, hm, hp⟩ := h.exists_mem_split hne
  have hd : decode? part = none := by
    rcases hp with rfl | rfl
    · exact decode?_eq_none hl
    · exact decode?_eq_none (not_valid_of_return hl)
  obtain ⟨earlier, later, hs⟩ := List.append_of_mem hm
  rw [read?, hs]
  simp [List.mapM_append, List.mapM_cons, hd]

end Lines

namespace Config

/-- A run on an input of texts, one on a line, is the run with these texts as its patterns. An
input with a line that is no text ends the run before anything is written. -/
theorem run_input (config : Config) (isTerminal : Bool) (console : Console) :
    (∀ texts, texts ≠ [] →
      (∀ text ∈ texts, '\n' ∉ text.toList ∧ text.toList.getLast? ≠ some '\r') → ∀ input,
      { config with patterns := [] }.run isTerminal (Lines.ofTexts texts) console =
        { config with patterns := texts }.run isTerminal input console) ∧
    ∀ input line, Lines.IsLine line input.data.toList → ¬ (⟨line.toArray⟩ : ByteArray).IsValidUTF8 →
      let result := { config with patterns := [] }.run isTerminal input console
      result.2 = .error .unreadableInput ∧ result.1.toSinks = console.toSinks := by
  refine ⟨fun texts hne ht input => ?_, fun input line hline hl => ?_⟩
  · have hread : Config.patternsOr { config with patterns := [] } (Lines.ofTexts texts) =
        .ok texts := by
      simp [patternsOr, Lines.read?_ofTexts ht]
    have hgiven : Config.patternsOr { config with patterns := texts } input = .ok texts := by
      simp [patternsOr, hne]
    rw [run, run, hread, hgiven]
    rfl
  · have hread : Config.patternsOr { config with patterns := [] } input =
        .error .unreadableInput := by
      simp [patternsOr, Lines.read?_eq_none hline hl]
    rw [run, hread]
    exact ⟨rfl, rfl⟩

/-- Spaces at the edges, a carriage return inside, an empty line and a pattern that is not
read; then a line that is cut inside a character. -/
theorem run_input_returns :
    let config : Config := ⟨[], .plain, ∅, true, false, .never, none⟩
    let texts := [" é\ra ", "", "(b"]
    let console : Console := .start (some 4) none
    config.run false (Lines.ofTexts texts) console =
        { config with patterns := texts }.run false .empty console ∧
      (config.run false ⟨#[97, 10, 98, 195]⟩ console).2 = .error .unreadableInput ∧
      (config.run false ⟨#[97, 10, 98, 195]⟩ console).1.toSinks = console.toSinks := by
  intro config texts console
  obtain ⟨hread, hbad⟩ := run_input config false console
  have hline : Lines.IsLine [98, 195] [97, 10, 98, 195] :=
    ⟨by decide, [97, 10], [], rfl, .inr rfl, .inl rfl⟩
  exact ⟨hread texts (List.cons_ne_nil _ _) (by decide +kernel) .empty,
    hbad ⟨#[97, 10, 98, 195]⟩ [98, 195] hline (by decide +kernel)⟩

end Config

end RegexTypeset
