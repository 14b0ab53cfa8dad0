import RegexTypeset.Proofs.SampleReading
import RegexTypeset.Proofs.UnseenText

/-! # Quantifiers hidden behind comments

A leading space stays in the body of a sample if the quantifier that applies to it comes
next. When comments or flag directives stand between the two, the space is cut off and
the quantifier finds nothing. Apart from that, a text has a sample exactly if it
can be read.
-/
namespace RegexTypeset

open EdgeSpaces (startsWithQuantifier)

/-- Comments or directives stand between leading spaces and a quantifier. -/
def HidesQuantified (text : List Char) : Prop :=
  ∃ n groups rest, text = List.replicate (n + 1) ' ' ++ (groups ++ rest) ∧ groups ≠ [] ∧
    Unseen groups ∧ startsWithQuantifier rest = true

namespace Pattern

variable {text : List Char} {flags found : Flags} {tokens : List Token}

/-- A reading with spaces around the text is one of the text, or the text is blocked. -/
theorem readOnce_of_spaces_around {j k : Nat} (hd : Detached text (List.replicate k ' '))
    (h : readOnce (List.replicate j ' ' ++ (text ++ List.replicate k ' ')) flags =
      .ok (tokens, found)) :
    (∃ tokens', readOnce text flags = .ok (tokens', found)) ∨
      j ≠ 0 ∧ flags.has .verbose = false ∧ Blocked false text := by
  obtain ⟨m', hr, hg, -, hf⟩ := readOnce_eq_ok.mp h
  rw [Nesting.read_spaces, Nesting.addSpaces_start flags j (List.replicate k ' ')] at hr
  have hspace : ∀ d ∈ List.replicate k ' ', d = ' ' := fun d => List.eq_of_mem_replicate
  rcases Nesting.read_of_within hspace hd hr with ⟨m, hm⟩ | ⟨hb, -, hblocked⟩
  · left
    have hs := Nesting.read_spaces_behind hm (Nesting.edge (flags.has .verbose) j) k
    obtain rfl := Except.ok.inj (hs.symm.trans hr)
    rw [Nesting.groups_addSpaces] at hg
    rw [Nesting.global_addSpaces] at hf
    have hg' : m.groups = [] := by
      rcases m with ⟨scope, global, current, _ | ⟨group, groups⟩⟩
      · rfl
      · cases hg
    exact ⟨_, readOnce_eq_ok.mpr ⟨m, hm, hg', rfl, hf⟩⟩
  · right
    have hv : flags.has .verbose = false := by
      rw [← Bool.not_eq_true]
      intro hv
      rw [hv] at hb
      exact hb rfl
    refine ⟨?_, hv, ?_⟩
    · rintro rfl
      rw [hv] at hb
      exact hb rfl
    · have hn : (Nesting.start flags).isVerbose = false := hv
      exact hn ▸ hblocked

/-- A verbose reading of a text that is blocked fails. -/
theorem not_blocked_of_readOnce (h : readOnce text flags = .ok (tokens, found))
    (hv : flags.has .verbose = true) : ¬ Blocked true text := by
  intro hb
  obtain ⟨m, hr, -⟩ := readOnce_eq_ok.mp h
  obtain ⟨place, he⟩ := Nesting.read_of_blocked hb (Nesting.isBare_start flags) hv
  rw [hr] at he
  cases he

/-- A text with spaces around it is read as the text alone is, or the text is blocked and one
reading was enough, which was never verbose. -/
theorem read_of_spaces_around {j k : Nat} (hd : Detached text (List.replicate k ' '))
    (h : read (List.replicate j ' ' ++ (text ++ List.replicate k ' ')) flags = .ok (tokens, found)) :
    (∃ tokens', read text flags = .ok (tokens', found)) ∨
      j ≠ 0 ∧ Blocked false text ∧ flags.has .verbose = false ∧ found.has .verbose = false ∧
        readOnce (List.replicate j ' ' ++ (text ++ List.replicate k ' ')) flags =
          .ok (tokens, found) := by
  simp only [read] at h
  split at h
  case h_1 => cases h
  case h_2 tokens₁ found₁ ho =>
    by_cases hr : rereads flags found₁ = true
    · rw [if_pos hr] at h
      have hf : found₁.has .verbose = true := by
        simp only [rereads, Bool.and_eq_true] at hr
        exact hr.1
      left
      rcases readOnce_of_spaces_around hd h with ⟨tokens₂, h₂⟩ | ⟨-, hv, -⟩
      · rcases readOnce_of_spaces_around hd ho with ⟨tokens₃, h₃⟩ | ⟨-, -, hb⟩
        · exact ⟨tokens₂, by simp [read, h₃, hr, h₂]⟩
        · exact absurd hb.verbose (not_blocked_of_readOnce h₂ hf)
      · exact absurd (hv.symm.trans hf) (by decide)
    · rw [if_neg hr] at h
      cases h
      rcases readOnce_of_spaces_around hd ho with ⟨tokens', h'⟩ | ⟨hj, hv, hb⟩
      · exact Or.inl ⟨tokens', by simp [read, h', hr]⟩
      · have hf : found.has .verbose = false := by
          rw [← Bool.not_eq_true]
          intro hf
          exact hr (by simp [rereads, hf, hv])
        exact Or.inr ⟨hj, hb, hv, hf, ho⟩

end Pattern

/-- The spaces before a hidden quantifier are cut off, and the quantifier is left. -/
theorem EdgeSpaces.cut_of_hides {n : Nat} {groups rest text : List Char} (hu : Unseen groups)
    (hn : groups ≠ []) (hq : startsWithQuantifier rest = true)
    (ht : text = List.replicate (n + 1) ' ' ++ (groups ++ rest)) :
    (ofText text).leading = n + 1 ∧ ∃ rest', (ofText text).cut text = groups ++ rest' ∧
      rest = rest' ++ List.replicate (ofText text).trailing ' ' := by
  obtain ⟨tail, rfl⟩ := hu.head hn
  have hl : (ofText text).leading = n + 1 := by
    have hp : ∀ c ∈ List.replicate (n + 1) ' ', decide (c = ' ') = true := by
      intro c hc
      rw [List.eq_of_mem_replicate hc]
      rfl
    obtain ⟨htake, hdrop⟩ := span_append hp (by decide : decide ('(' = ' ') = false) (tail ++ rest)
    have hs : startsWithQuantifier ('(' :: (tail ++ rest)) = false := rfl
    show leadingIn text = n + 1
    rw [ht, leadingIn, List.cons_append, htake, hdrop, hs]
    simp
  refine ⟨hl, ?_⟩
  have hsplit := ofText_split text
  rw [hl] at hsplit
  have he := List.append_cancel_left (ht.symm.trans hsplit)
  rcases List.append_eq_append_iff.mp he with ⟨rest', hc, hr⟩ | ⟨past, -, hr⟩
  · exact ⟨rest', hc, hr⟩
  · exfalso
    cases rest with
    | nil => cases hq
    | cons c rest =>
      have hm : c ∈ List.replicate (ofText text).trailing ' ' := by simp [hr]
      have hc := Lexeme.sign_of_startsWithQuantifier hq
      rw [List.eq_of_mem_replicate hm] at hc
      exact absurd hc (by decide)

namespace Sample

variable {text : String} {flags : Flags}

/-- A text has a sample if its body is read. -/
theorem exists_ofText : (∃ sample, ofText text flags = .ok sample) ↔
    ∃ tokens found, Pattern.read ((EdgeSpaces.ofText (spellTabs text.toList)).cut
      (spellTabs text.toList)) flags = .ok (tokens, found) := by
  have hb : (body text).toList = (EdgeSpaces.ofText (spellTabs text.toList)).cut
      (spellTabs text.toList) := String.toList_ofList
  rw [← hb, ← Pattern.compile_eq_ok]
  simp only [ofText]
  split
  case h_1 hc => simp [hc]
  case h_2 pattern hc => simp [hc]

/-- A text with a sample can be read as a whole. -/
theorem exists_read_of_body {text : List Char} {flags : Flags}
    (h : ∃ tokens found, Pattern.read ((EdgeSpaces.ofText text).cut text) flags =
      .ok (tokens, found)) :
    ∃ tokens found, Pattern.read text flags = .ok (tokens, found) := by
  obtain ⟨tokens, found, hr⟩ := h
  have ha := Pattern.read_spaces_around hr (EdgeSpaces.ofText text).leading
    (EdgeSpaces.ofText text).trailing
  rw [← EdgeSpaces.ofText_split] at ha
  exact ⟨_, _, ha⟩

/-- Without a hidden quantifier, the body of a text that can be read can be read. -/
theorem exists_read_body {text : List Char} {flags : Flags} (hn : ¬ HidesQuantified text)
    (h : ∃ tokens found, Pattern.read text flags = .ok (tokens, found)) :
    ∃ tokens found, Pattern.read ((EdgeSpaces.ofText text).cut text) flags = .ok (tokens, found) := by
  obtain ⟨tokens, found, hr⟩ := h
  have hd := EdgeSpaces.detached_ofText text
  have hs := EdgeSpaces.ofText_split text
  have hw := hr
  rw [hs] at hw
  rcases Pattern.read_of_spaces_around hd hw with ⟨tokens', h'⟩ | ⟨hj, hb, hv, hf, ho⟩
  · exact ⟨tokens', found, h'⟩
  exfalso
  rcases unseen_of_blocked hb rfl (EdgeSpaces.ofText text).trailing with
    ⟨groups, rest, hcut, hu, hq⟩ | hverbose
  · have hqs := startsWithQuantifier_append hq
      (List.replicate (EdgeSpaces.ofText text).trailing ' ')
    by_cases hg : groups = []
    · -- such a quantifier would have held back the last leading space
      have hstart := EdgeSpaces.not_startsWithQuantifier_ofText hj
      have hdrop : text.drop (EdgeSpaces.ofText text).leading =
          rest ++ List.replicate (EdgeSpaces.ofText text).trailing ' ' := by
        have hd' := congrArg (List.drop (EdgeSpaces.ofText text).leading) hs
        rw [List.drop_left' List.length_replicate, hcut, hg, List.nil_append] at hd'
        exact hd'
      rw [hdrop, hqs] at hstart
      cases hstart
    · obtain ⟨n, hl⟩ := Nat.exists_eq_succ_of_ne_zero hj
      refine hn ⟨n, groups, _, ?_, hg, hu, hqs⟩
      rw [hcut, List.append_assoc, hl] at hs
      exact hs
  · obtain ⟨m, hm, -, -, rfl⟩ := Pattern.readOnce_eq_ok.mp ho
    rw [Nesting.read_spaces] at hm
    have hv' : ((Nesting.start flags).addSpaces (EdgeSpaces.ofText text).leading).isVerbose = false := by
      rw [Nesting.isVerbose_addSpaces]
      exact hv
    exact absurd (hf.symm.trans (hverbose _ m hv' hm)) (by decide)

/-- A hidden quantifier finds nothing to repeat in the body. -/
theorem ofText_of_hides (h : ∃ tokens found, Pattern.read (spellTabs text.toList) flags =
      .ok (tokens, found)) (hh : HidesQuantified (spellTabs text.toList)) :
    ∃ offset, ofText text flags = .error ⟨.nothingToRepeat, offset⟩ := by
  obtain ⟨tokens, found, hr⟩ := h
  obtain ⟨tokens₁, found₁, ho⟩ := Pattern.exists_readOnce_of_read hr
  obtain ⟨m, hm, -⟩ := Pattern.readOnce_eq_ok.mp ho
  obtain ⟨n, groups, rest, ht, hn, hu, hq⟩ := hh
  obtain ⟨-, rest', hcut, rfl⟩ := EdgeSpaces.cut_of_hides hu hn hq ht
  have hd := EdgeSpaces.detached_ofText (spellTabs text.toList)
  rw [EdgeSpaces.ofText_split (spellTabs text.toList), Nesting.read_spaces, hcut] at hm
  rw [hcut] at hd
  have hb := blocked_of_unseen hu hq hd hm
  rw [Nesting.isVerbose_addSpaces, ← hcut] at hb
  obtain ⟨place, he⟩ := Nesting.read_of_blocked hb (Nesting.isBare_start flags) rfl
  have hbody : (body text).toList = (EdgeSpaces.ofText (spellTabs text.toList)).cut
      (spellTabs text.toList) := String.toList_ofList
  have hc : Pattern.compile (body text) flags =
      .error ((⟨.nothingToRepeat, place⟩ : Fault).locate (body text).toList) := by
    simp only [Pattern.compile, Pattern.read, Pattern.readOnce, hbody, he]
  exact ⟨_, by simp only [ofText, hc]; rfl⟩

/-- A text has a sample exactly if it can be read as a whole and hides no quantifier; if it can
be read and hides one, there is nothing to repeat. -/
theorem ofText_iff_compile (text : String) (flags : Flags) :
    ((∃ sample, ofText text flags = .ok sample) ↔
      (∃ pattern, Pattern.compile (String.ofList (spellTabs text.toList)) flags = .ok pattern) ∧
        ¬ HidesQuantified (spellTabs text.toList)) ∧
    ((∃ pattern, Pattern.compile (String.ofList (spellTabs text.toList)) flags = .ok pattern) →
      HidesQuantified (spellTabs text.toList) →
        ∃ offset, ofText text flags = .error ⟨.nothingToRepeat, offset⟩) := by
  rw [Pattern.compile_eq_ok, String.toList_ofList]
  refine ⟨⟨fun hs => ?_, fun ⟨hr, hn⟩ => ?_⟩, ofText_of_hides⟩
  · have hr := exists_read_of_body (exists_ofText.mp hs)
    refine ⟨hr, fun hh => ?_⟩
    obtain ⟨sample, hs⟩ := hs
    obtain ⟨offset, he⟩ := ofText_of_hides hr hh
    rw [hs] at he
    cases he
  · exact exists_ofText.mpr (exists_read_body hn hr)

section

open scoped TreeEquality

/-- The star behind the comment repeats the space, but not in the body. -/
theorem ofText_iff_compile_comment :
    (∃ pattern, Pattern.compile (String.ofList (spellTabs " (?#c)*".toList)) ∅ = .ok pattern) ∧
      ∃ offset, ofText " (?#c)*" ∅ = .error ⟨.nothingToRepeat, offset⟩ := by
  have hr : Pattern.read (spellTabs " (?#c)*".toList) ∅ =
      .ok ([.repeated ⟨0, none, false⟩ (.literal ' ')], ∅) := by decide +kernel
  have hc : ∃ pattern, Pattern.compile (String.ofList (spellTabs " (?#c)*".toList)) ∅ =
      .ok pattern := Pattern.compile_eq_ok.mpr ⟨_, _, String.toList_ofList.symm ▸ hr⟩
  have hh : HidesQuantified (spellTabs " (?#c)*".toList) :=
    ⟨0, ['(', '?', '#', 'c', ')'], ['*'], by decide, by decide, @Unseen.comment ['c'] [] (by decide) .nil,
      rfl⟩
  exact ⟨hc, (ofText_iff_compile " (?#c)*" ∅).2 hc hh⟩

end

end Sample

end RegexTypeset
