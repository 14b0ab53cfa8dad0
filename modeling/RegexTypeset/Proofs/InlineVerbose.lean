import RegexTypeset.Proofs.AlikeReadings
import RegexTypeset.Proofs.TreeEquality

/-! # Verbose reading asked for inside a pattern

A pattern that asks for verbose reading is read again with all the flags that the first
reading found. Its tokens are those of a pattern that is given as verbose. Its flags are
more if the first reading found some in text that the second one skips.
-/
namespace RegexTypeset

namespace Pattern

/-- A pattern that asks for verbose reading is read as if that were given, and has the flags of
the first reading besides. They are the same exactly if the verbose reading finds those too. -/
theorem read_of_inlineVerbose (text : List Char) (flags found : Flags) (tokens : List Token)
    (hv : flags.has .verbose = false) (h : read text flags = .ok (tokens, found))
    (hf : found.has .verbose = true) :
    ∃ tokens₁ first own, readOnce text flags = .ok (tokens₁, first) ∧
      read text (flags ∪ .verbose) = .ok (tokens, own) ∧ found = first ∪ own ∧
      (read text (flags ∪ .verbose) = .ok (tokens, found) ↔ own.has first = true) := by
  simp only [read] at h
  split at h
  case h_1 => cases h
  case h_2 tokens₁ first ho =>
    have hfirst : first.has .verbose = true := by
      by_contra hn
      rw [if_neg (by simp [rereads, hn])] at h
      cases h
      exact hn hf
    rw [if_pos (by simp [rereads, hfirst, hv])] at h
    have hgiven : (flags ∪ .verbose).has .verbose = true := by
      have hown : Flags.verbose.has .verbose = true := by decide
      simp [hown]
    -- the second reading starts with more flags, but as verbose
    obtain ⟨directives, rfl, hr⟩ := readOnce_alike (hgiven.trans hfirst.symm) h
    obtain ⟨added, hadded, -⟩ := readOnce_alike rfl ho
    have hread : read text (flags ∪ .verbose) = .ok (tokens, (flags ∪ .verbose) ∪ directives) := by
      have hx (found : Flags) : rereads (flags ∪ .verbose) found = false := by simp [rereads, hgiven]
      simp [read, hr, hx]
    have hflags : first ∪ flags = first := by
      rw [hadded, Flags.union_comm, ← Flags.union_assoc, Flags.union_self]
    have hunion : first ∪ directives = first ∪ ((flags ∪ .verbose) ∪ directives) := calc
      first ∪ directives = (first ∪ .verbose) ∪ directives := by rw [Flags.has_iff_union.mp hfirst]
      _ = ((first ∪ flags) ∪ .verbose) ∪ directives := by rw [hflags]
      _ = first ∪ ((flags ∪ .verbose) ∪ directives) := by simp only [Flags.union_assoc]
    refine ⟨tokens₁, first, _, ho, hread, hunion, ?_⟩
    rw [hread, Flags.has_iff_union, Except.ok.injEq, Prod.mk.injEq, hunion, Flags.union_comm first]
    exact ⟨fun he => he.2.symm, fun he => ⟨rfl, he.symm⟩⟩

section

open scoped TreeEquality

/-- The comment hides the directive from the verbose reading, but not from the first one. -/
theorem read_of_inlineVerbose_comment :
    read "#(?i)\n(?x)".toList ∅ = .ok ([], .ignoreCase ∪ .verbose) ∧
      read "#(?i)\n(?x)".toList (∅ ∪ .verbose) ≠ .ok ([], .ignoreCase ∪ .verbose) := by
  have h : read "#(?i)\n(?x)".toList ∅ = .ok ([], .ignoreCase ∪ .verbose) := by decide +kernel
  obtain ⟨tokens₁, first, own, ho, hr, -, hiff⟩ := read_of_inlineVerbose _ ∅ _ _ (by decide) h (by decide)
  have ho' : readOnce "#(?i)\n(?x)".toList ∅ =
      .ok ([.literal '#', .literal '\n'], .ignoreCase ∪ .verbose) := by decide +kernel
  have hr' : read "#(?i)\n(?x)".toList (∅ ∪ .verbose) = .ok ([], .verbose) := by decide +kernel
  obtain ⟨-, rfl⟩ := Prod.mk.inj (Except.ok.inj (ho.symm.trans ho'))
  obtain ⟨-, rfl⟩ := Prod.mk.inj (Except.ok.inj (hr.symm.trans hr'))
  exact ⟨h, fun he => absurd (hiff.mp he) (by decide)⟩

end

end Pattern

end RegexTypeset
