import RegexTypeset.Proofs.EdgeCuts
import RegexTypeset.Proofs.ReadTrees
import RegexTypeset.Proofs.SurroundedReading

/-! # A sample and its whole text

The body of a sample is read in the whole text as it is alone. So the whole text makes
the tokens of the sample with the spaces put back, those that the text shows and those
that are found among the tokens.
-/
namespace RegexTypeset

theorem isSequence_of_read {items : List Token} (h : ∀ token ∈ items, Item ReadLeaf token) :
    IsSequence items :=
  isSequence_of_items (fun _ hl => hl) h

theorem surround_nil {items : List Token} (h : Content ReadLeaf items) :
    surround [] [] items = items := by
  cases h with
  | sequence h =>
    rw [surround_sequence (isSequence_of_read h)]
    simp
  | alternation h _ =>
    obtain ⟨first, middle, last, rfl⟩ := exists_first_last h
    rw [surround_alternation]
    simp

theorem surround_surround {items : List Token} (h : Content ReadLeaf items) (i j k l : Nat) :
    surround (spaceItems i) (spaceItems l) (surround (spaceItems j) (spaceItems k) items) =
      surround (spaceItems (i + j)) (spaceItems (k + l)) items := by
  cases h with
  | sequence h =>
    have hw : ∀ token ∈ spaceItems j ++ items ++ spaceItems k, Item ReadLeaf token := by
      intro token ht
      have hsp (n : Nat) (ht : token ∈ spaceItems n) : Item ReadLeaf token := by
        rw [List.eq_of_mem_replicate ht]
        exact .leaf trivial
      rcases List.mem_append.mp ht with ht | ht
      · rcases List.mem_append.mp ht with ht | ht
        · exact hsp j ht
        · exact h token ht
      · exact hsp k ht
    have hs := isSequence_of_read h
    rw [surround_sequence hs, surround_sequence hs, surround_sequence (isSequence_of_read hw),
      ← spaceItems_append, ← spaceItems_append]
    simp only [List.append_assoc]
  | alternation h _ =>
    obtain ⟨first, middle, last, rfl⟩ := exists_first_last h
    rw [surround_alternation, surround_alternation, surround_alternation, ← spaceItems_append,
      ← spaceItems_append]
    simp only [List.append_assoc]

namespace Sample

/-- The edge spaces found among the tokens, and the rest, are the tokens. -/
theorem surround_hidden {tokens : List Token} (h : Content ReadLeaf tokens) (shown : EdgeSpaces) :
    surround (spaceItems (hidden shown tokens).leading) (spaceItems (hidden shown tokens).trailing)
      ((hidden shown tokens).cut tokens) = tokens := by
  have hc := content_cut h shown
  cases h with
  | sequence h =>
    have hs : IsSequence ((hidden shown tokens).cut tokens) :=
      isSequence_of_read fun token ht => h token (List.mem_of_mem_drop (List.mem_of_mem_take ht))
    rw [surround_sequence hs, List.append_assoc]
    refine (EdgeSpaces.cut_split EdgeSpaces.eq_literal_space (hidden shown tokens) ?_ ?_).symm
    · simp only [hidden, EdgeSpaces.ofTokens]
      split <;> omega
    · have hl := EdgeSpaces.length_takeWhile_drop Token.isSpace tokens
        (tokens.takeWhile Token.isSpace).length
      simp only [hidden, EdgeSpaces.ofTokens]
      by_cases ht : shown.trailing = 0
      · rw [if_pos ht]
        by_cases h0 : shown.leading = 0
        · rw [if_pos h0]
        · rw [if_neg h0, List.drop_zero]
          exact hl
      · rw [if_neg ht]
        exact Nat.zero_le _
  | @alternation branches hl hb =>
    have hz : hidden shown [.alternation branches] = .none := by
      simp [hidden, EdgeSpaces.ofTokens, Token.isSpace, EdgeSpaces.none]
    rw [hz]
    exact surround_nil (.alternation hl hb)

end Sample

theorem Alternatives.Fit.isPlain {d : Nat} {a : Alternatives} (h : a.Fit d) : a.IsPlain := by
  intro _
  apply isSequence_of_read
  intro token ht
  exact (h.items token (List.mem_reverse.mp ht)).1

namespace Pattern

variable {text : List Char} {flags found : Flags} {tokens : List Token}

/-- A verbose reading finds itself verbose. -/
theorem verbose_of_readOnce (h : readOnce text flags = .ok (tokens, found))
    (hv : flags.has .verbose = true) : found.has .verbose = true := by
  obtain ⟨m, hr, -, -, rfl⟩ := readOnce_eq_ok.mp h
  exact Nesting.global_verbose_of_read hr hv

/-- In one reading, spaces around a pattern add nothing if it started verbose, and are around
the tokens if it was never verbose. -/
theorem readOnce_spaces_around (h : readOnce text flags = .ok (tokens, found)) (j k : Nat) :
    ∃ tokens', readOnce (List.replicate j ' ' ++ (text ++ List.replicate k ' ')) flags =
        .ok (tokens', found) ∧
      (flags.has .verbose = true → tokens' = tokens) ∧
      (found.has .verbose = false → tokens' = surround (spaceItems j) (spaceItems k) tokens) := by
  obtain ⟨m, hr, hg, rfl, rfl⟩ := readOnce_eq_ok.mp h
  have hf : m.Fit := Nesting.read_keeps Nesting.Step.fit hr (Nesting.fit_start flags)
  have ha := Nesting.read_spaces_around hr hg j k
  refine ⟨_, readOnce_eq_ok.mpr ⟨_, ha, ?_, rfl, ?_⟩, ?_, ?_⟩
  · rw [Nesting.groups_addSpaces]
    exact hg
  · rw [Nesting.global_addSpaces]
  · intro hv
    have hm : m.isVerbose = true := Nesting.isVerbose_of_given hr hg hv
    have hm' : Nesting.isVerbose { m with
        current := m.current.precede (Nesting.edge (flags.has .verbose) j) } = true := hm
    rw [Nesting.addSpaces, if_pos hm', hv]
    show (m.current.precede []).tokens = _
    rw [Alternatives.precede_empty_list]
  · intro hv
    have hflags : flags.has .verbose = false := by
      rw [← Bool.not_eq_true]
      intro ht
      exact absurd (hv.symm.trans (verbose_of_readOnce h ht)) (by decide)
    have hm : ¬ Nesting.isVerbose { m with
        current := m.current.precede (Nesting.edge (flags.has .verbose) j) } = true := by
      intro hm
      have ht := Nesting.global_of_isVerbose hr hg hm
      exact absurd (hv.symm.trans ht) (by decide)
    rw [Nesting.addSpaces, if_neg hm, hflags]
    exact Alternatives.tokens_surround hf.current.isPlain _ _

/-- Spaces around a pattern are around its tokens, or add nothing if it is verbose. -/
theorem read_spaces_around (h : read text flags = .ok (tokens, found)) (j k : Nat) :
    read (List.replicate j ' ' ++ (text ++ List.replicate k ' ')) flags =
      .ok (if found.has .verbose then tokens
        else surround (spaceItems j) (spaceItems k) tokens, found) := by
  simp only [read] at h
  split at h
  case h_1 => cases h
  case h_2 tokens₁ found₁ ho =>
    obtain ⟨tokens', ho', hv, hn⟩ := readOnce_spaces_around ho j k
    simp only [read, ho']
    by_cases hr : rereads flags found₁ = true
    · rw [if_pos hr] at h ⊢
      have hf : found₁.has .verbose = true := by
        simp only [rereads, Bool.and_eq_true] at hr
        exact hr.1
      obtain ⟨tokens'', ho'', hv', -⟩ := readOnce_spaces_around h j k
      rw [ho'', hv' hf, if_pos (verbose_of_readOnce h hf)]
    · rw [if_neg hr] at h ⊢
      cases h
      by_cases hf : found.has .verbose = true
      · have hg : flags.has .verbose = true := by
          by_contra hg
          exact hr (by simp [rereads, hf, hg])
        rw [hv hg, if_pos hf]
      · rw [hn (Bool.not_eq_true _ ▸ hf), if_neg hf]

end Pattern

namespace Sample

/-- The spaces around the body of a text are those that the text shows. -/
theorem surround_shown {tokens : List Token} (h : Content ReadLeaf tokens) (text : String)
    (found : Flags) :
    (if found.has .verbose then tokens
      else surround (spaceItems (EdgeSpaces.ofText (spellTabs text.toList)).leading)
        (spaceItems (EdgeSpaces.ofText (spellTabs text.toList)).trailing) tokens) =
      surround (spaceItems (shown text found).leading) (spaceItems (shown text found).trailing)
        tokens := by
  by_cases hv : found.has .verbose = true
  · rw [if_pos hv, shown, if_pos hv]
    exact (surround_nil h).symm
  · rw [if_neg hv, shown, if_neg hv]

/-- The tokens of a sample with its edge spaces put back are those of the whole text. -/
theorem compile_of_ofText (text : String) (flags : Flags) (sample : Sample)
    (h : ofText text flags = .ok sample) :
    Pattern.compile (String.ofList (spellTabs text.toList)) flags =
      .ok ⟨String.ofList (spellTabs text.toList), sample.flags,
        surround (List.replicate sample.spaces.leading (.literal ' '))
          (List.replicate sample.spaces.trailing (.literal ' ')) sample.tokens⟩ := by
  simp only [ofText] at h
  split at h
  case h_1 => cases h
  case h_2 pattern hc =>
    cases h
    have hcontent := Pattern.content_of_compile hc
    simp only [Pattern.compile, body] at hc
    split at hc
    case h_1 => cases hc
    case h_2 tokens found hr =>
      obtain rfl := Except.ok.inj hc
      rw [String.toList_ofList] at hr
      have ha := Pattern.read_spaces_around hr
        (EdgeSpaces.ofText (spellTabs text.toList)).leading
        (EdgeSpaces.ofText (spellTabs text.toList)).trailing
      rw [← EdgeSpaces.ofText_split] at ha
      have hs := surround_surround (content_cut hcontent (shown text found))
        (shown text found).leading (hidden (shown text found) tokens).leading
        (hidden (shown text found) tokens).trailing (shown text found).trailing
      rw [surround_hidden hcontent] at hs
      rw [Pattern.compile, String.toList_ofList, ha, surround_shown hcontent, hs,
        Nat.add_comm (hidden _ _).trailing]
      rfl

section

open scoped TreeEquality

deriving instance DecidableEq for Sample

theorem compile_of_ofText_branches :
    Pattern.compile (String.ofList (spellTabs "  a\t|[ ]b\\  ".toList)) ∅ =
      .ok ⟨String.ofList (spellTabs "  a\t|[ ]b\\  ".toList), ∅,
        surround (List.replicate 2 (.literal ' ')) (List.replicate 1 (.literal ' '))
          [.alternation [[.literal 'a', .literal '\t'],
            [.literal ' ', .literal 'b', .literal ' ']]]⟩ :=
  compile_of_ofText "  a\t|[ ]b\\  " ∅
    ⟨[.alternation [[.literal 'a', .literal '\t'], [.literal ' ', .literal 'b', .literal ' ']]],
      ⟨2, 1⟩, ∅⟩ (by decide +kernel)

end

end Sample

end RegexTypeset
