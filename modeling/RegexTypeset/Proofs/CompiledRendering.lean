import RegexTypeset.Proofs.GivenFlags
import RegexTypeset.Proofs.GroupedReading
import RegexTypeset.Proofs.HiddenQuantifier
import RegexTypeset.Proofs.SpelledLexemes
import RegexTypeset.Renderer

/-! # Rendering a compiled pattern

A compiled pattern is rendered from its text once more, now under the flags that were
found in the whole text. A text finds these flags on its own, though it is read without
its edge spaces. So its rendering is the same, and so is the error if its body cannot
be read because a quantifier of a leading space was left behind.
-/
namespace RegexTypeset

namespace Pattern

variable {text : List Char} {flags found : Flags} {tokens : List Token}

/-- A reading that is blocked finds nothing to repeat. -/
theorem read_of_blocked {verbose : Bool} (h : Blocked verbose text) (hv : flags.has .verbose = verbose) :
    ∃ place, read text flags = .error ⟨.nothingToRepeat, place⟩ := by
  obtain ⟨place, he⟩ := Nesting.read_of_blocked h (Nesting.isBare_start flags) hv
  exact ⟨place, read_error he⟩

/-- The flags found in a text with spaces around it make no difference to the text alone: either
it has the same flags, or it fails under both. -/
theorem read_found_of_spaces_around {j k : Nat} (hd : Detached text (List.replicate k ' '))
    (h : read (List.replicate j ' ' ++ (text ++ List.replicate k ' ')) flags = .ok (tokens, found)) :
    read text found = read text flags := by
  rcases read_of_spaces_around hd h with ⟨tokens', h'⟩ | ⟨-, hb, hv, hf, ho⟩
  · rw [h', read_found h']
  · obtain ⟨directives, rfl, -⟩ := readOnce_alike rfl ho
    rw [Flags.has_verbose_union, Bool.or_eq_false_iff] at hf
    obtain ⟨place, he⟩ := read_of_blocked hb hv
    rw [read_union text flags hf.2, he]
    rfl

end Pattern

namespace Sample

theorem spellTabs_of_not_mem {text : List Char} (h : '\t' ∉ text) : spellTabs text = text := by
  have ha := spellTabs_append h []
  rwa [List.append_nil, spellTabs_nil, List.append_nil] at ha

/-- A text has the same sample under the flags that are found in the whole of it. -/
theorem ofText_found {text : String} {flags found : Flags} {tokens : List Token}
    (h : Pattern.read (spellTabs text.toList) flags = .ok (tokens, found)) :
    ofText text found = ofText text flags := by
  have hd := EdgeSpaces.detached_ofText (spellTabs text.toList)
  rw [EdgeSpaces.ofText_split (spellTabs text.toList)] at h
  have hread := Pattern.read_found_of_spaces_around hd h
  have hbody : (body text).toList = (EdgeSpaces.ofText (spellTabs text.toList)).cut
      (spellTabs text.toList) := String.toList_ofList
  rw [← hbody] at hread
  simp only [ofText, Pattern.compile, hread]

end Sample

namespace Renderer

/-- A compiled pattern is rendered as its text is, if the text holds no tab. -/
theorem renderPattern_of_compile (r : Renderer) (text : String) (flags : Flags) (pattern : Pattern)
    (ht : '\t' ∉ text.toList) (h : Pattern.compile text flags = .ok pattern) :
    r.renderPattern pattern = r.renderText text flags := by
  obtain ⟨hr, rfl⟩ := Pattern.compile_eq_ok_iff.mp h
  rw [← Sample.spellTabs_of_not_mem ht] at hr
  simp only [renderPattern, renderText, Sample.ofText_found hr]

section

open scoped TreeEquality

/-- One pattern asks for verbose reading; in the other one the space that is repeated is cut off. -/
theorem renderPattern_of_compile_inline :
    (ofTarget .plain true).renderPattern
        ⟨" a (?x) b#(", .verbose, [.literal 'a', .literal 'b']⟩ = .ok "ab" ∧
      (ofTarget .plain true).renderPattern
        ⟨" (?#c)(?i)*", .ignoreCase, [.repeated ⟨0, none, false⟩ (.literal ' ')]⟩ =
        .error (.pattern ⟨.nothingToRepeat, 9⟩) := by
  have hr : Pattern.read " a (?x) b#(".toList ∅ = .ok ([.literal 'a', .literal 'b'], .verbose) := by
    decide +kernel
  have hr' : Pattern.read " (?#c)(?i)*".toList ∅ =
      .ok ([.repeated ⟨0, none, false⟩ (.literal ' ')], .ignoreCase) := by decide +kernel
  have hv : (ofTarget .plain true).renderText " a (?x) b#(" ∅ = .ok "ab" := by decide +kernel
  have hv' : (ofTarget .plain true).renderText " (?#c)(?i)*" ∅ =
      .error (.pattern ⟨.nothingToRepeat, 9⟩) := by decide +kernel
  constructor
  · rw [← hv]
    exact renderPattern_of_compile _ " a (?x) b#(" ∅ _ (by decide)
      (Pattern.compile_eq_ok_iff.mpr ⟨hr, rfl⟩)
  · rw [← hv']
    exact renderPattern_of_compile _ " (?#c)(?i)*" ∅ _ (by decide)
      (Pattern.compile_eq_ok_iff.mpr ⟨hr', rfl⟩)

end

end Renderer

end RegexTypeset
