import RegexTypeset.Proofs.ComposedPatterns

/-! # Flags of a group hold inside it

A group that sets or clears the verbose flag reads its content as under other given flags,
and leaves the flags in force as they were. So what follows is read as if the group were
not there, unless a directive inside the group asks for verbose reading of the whole.
-/
namespace RegexTypeset

namespace Nesting

variable {kind : GroupKind} {content : List Char} {flags given added removed : Flags} {m : Nesting}

/-- A whole pattern as the content of a group whose flags are as verbose. -/
theorem Whole.exists_inside (hw : Whole (start given) content m)
    (hi : (kind.inner flags).has .verbose = given.has .verbose) :
    ∃ m', Whole (inside kind flags) content m' ∧ m'.current = m.current ∧
      m'.isVerbose = m.isVerbose := by
  have hv : (inside kind flags).isVerbose = (start given).isVerbose := hi
  obtain ⟨m', hm', halike⟩ := hw.transfer hv
  exact ⟨m', hm', halike.current, halike.scope⟩

/-- A pattern that is one group with flags of its own. -/
theorem Whole.readOnce_flagged {header : List Char}
    (hw : Whole (inside (.flagged added removed) flags) content m)
    (hr : HasRoom 1 (inside (.flagged added removed) flags) content)
    (hh : Opens header content m.isVerbose (.flagged added removed)) :
    Pattern.readOnce ('(' :: (header ++ (content ++ groupEnd m.isVerbose))) flags =
      .ok ([.group m.current.tokens], m.global ∪ flags) := by
  have ho := hw.readOnce_group hr hh (whole_nil (start flags)) rfl
  rwa [List.append_nil] at ho

end Nesting

namespace Pattern

variable {p q text : List Char} {flags found found' : Flags} {tokens tokens' : List Token}

theorem verbose_given (flags : Flags) : (flags ∪ .verbose).has .verbose = true := by
  rw [Flags.has_verbose_union, Bool.or_eq_true]
  exact Or.inr (by decide)

/-- If a first reading were verbose in the end, so would be the whole, provided that the second
reading succeeds too. -/
theorem not_verbose_of_readOnce (ho : readOnce text flags = .ok (tokens, found))
    (hf : flags.has .verbose = false) (hagain : ∃ result, readOnce text found = .ok result)
    (hx : ∀ t g, read text flags = .ok (t, g) → g.has .verbose = false) :
    found.has .verbose = false := by
  cases hv : found.has .verbose with
  | false => rfl
  | true =>
    obtain ⟨⟨t, g⟩, hg⟩ := hagain
    have hr : read text flags = .ok (t, g) := by
      simp [read, ho, rereads, hv, hf, hg]
    exact (verbose_of_readOnce hg hv).symm.trans (hx t g hr)

/-- A group that sets the verbose flag, and what follows it. -/
theorem read_verboseGroup (hp : read p (flags ∪ .verbose) = .ok (tokens, found))
    (hx : ∀ t g, read ('(' :: '?' :: 'x' :: ':' :: (p ++ ['\n', ')'])) flags = .ok (t, g) →
      g.has .verbose = false)
    (hq : read q flags = .ok (tokens', found')) (hv : found'.has .verbose = false) :
    (∃ place, read ('(' :: '?' :: 'x' :: ':' :: (p ++ '\n' :: ')' :: q)) flags =
        .error ⟨.tooDeep, place⟩) ∨
      ∃ g, read ('(' :: '?' :: 'x' :: ':' :: (p ++ '\n' :: ')' :: q)) flags =
        .ok (surround [.group tokens] [] tokens', g) ∧ g.has .verbose = false := by
  let kind : GroupKind := .flagged (∅ ∪ .verbose) ∅
  have hinner (given : Flags) : (kind.inner given).has .verbose = (flags ∪ .verbose).has .verbose := by
    have he : (∅ : Flags).has .verbose = false := by decide
    have hf : Flags.verbose.has .verbose = true := by decide
    simp [kind, GroupKind.inner, he, hf]
  have hopens : Nesting.Opens ['?', 'x', ':'] p true kind := fun _ => rfl
  have ho := readOnce_of_read hp fun _ => verbose_given flags
  obtain ⟨m, hm, rfl, -⟩ := readOnce_eq_ok_iff_whole.mp ho
  have hmv : m.isVerbose = true :=
    Nesting.isVerbose_of_given hm.reads hm.closed (verbose_given flags)
  obtain ⟨n, hn, rfl, rfl, -, hf⟩ := exists_whole_of_read hq hv
  obtain ⟨m₁, hm₁, hc₁, hv₁⟩ := hm.exists_inside (hinner flags)
  rw [hmv] at hv₁
  rw [← hv₁] at hopens
  by_cases hr : Nesting.HasRoom 1 (.inside kind flags) p
  · right
    have hfirst := hm₁.readOnce_flagged hr hopens
    have hglobal : (m₁.global ∪ flags).has .verbose = false := by
      refine not_verbose_of_readOnce hfirst hf ?_ (by rw [hv₁]; exact hx)
      -- the second reading has the same content, as the group is verbose in both
      obtain ⟨m₂, hm₂, -, hv₂⟩ := hm.exists_inside (hinner (m₁.global ∪ flags))
      have hsame : (Nesting.inside kind (m₁.global ∪ flags)).isVerbose =
          (Nesting.inside kind flags).isVerbose := (hinner _).trans (hinner _).symm
      have hr₂ : Nesting.HasRoom 1 (.inside kind (m₁.global ∪ flags)) p :=
        (Nesting.hasRoom_restart hsame).mpr hr
      rw [hv₁, ← hmv, ← hv₂] at hopens ⊢
      exact ⟨_, hm₂.readOnce_flagged hr₂ hopens⟩
    have hread := hm₁.readOnce_group hr hopens hn rfl
    rw [hc₁, hv₁] at hread
    have hnot : (m₁.global ∪ n.global).has .verbose = false := by
      rw [Flags.has_verbose_union, Bool.or_eq_false_iff] at hglobal ⊢
      exact ⟨hglobal.1, hv⟩
    exact ⟨_, read_of_readOnce hread fun ht => absurd (hnot.symm.trans ht) (by decide), hnot⟩
  · left
    obtain ⟨place, he⟩ := hm₁.read_group_tooDeep hr hopens q
    rw [hv₁] at he
    exact ⟨place, read_error he⟩

/-- A group that clears the verbose flag. -/
theorem read_plainGroup (hp : read p flags = .ok (tokens, found)) (hv : found.has .verbose = false) :
    (∃ place, read ('(' :: '?' :: '-' :: 'x' :: ':' :: (p ++ [')'])) (flags ∪ .verbose) =
        .error ⟨.tooDeep, place⟩) ∨
      ∃ g, read ('(' :: '?' :: '-' :: 'x' :: ':' :: (p ++ [')'])) (flags ∪ .verbose) =
        .ok ([.group tokens], g) := by
  let kind : GroupKind := .flagged ∅ (∅ ∪ .verbose)
  obtain ⟨m, hm, rfl, rfl, hmv, hf⟩ := exists_whole_of_read hp hv
  have hinner : (kind.inner (flags ∪ .verbose)).has .verbose = flags.has .verbose := by
    have ht : Flags.verbose.has .verbose = true := by decide
    simp [kind, GroupKind.inner, ht, hf]
  obtain ⟨m₁, hm₁, hc₁, hv₁⟩ := hm.exists_inside hinner
  rw [hmv] at hv₁
  have hopens : Nesting.Opens ['?', '-', 'x', ':'] p m₁.isVerbose kind := hv₁ ▸ fun _ => rfl
  by_cases hr : Nesting.HasRoom 1 (.inside kind (flags ∪ .verbose)) p
  · right
    have ho := hm₁.readOnce_flagged hr hopens
    rw [hc₁, hv₁] at ho
    exact ⟨_, read_of_readOnce ho fun _ => verbose_given flags⟩
  · left
    obtain ⟨place, he⟩ := hm₁.read_group_tooDeep hr hopens []
    rw [hv₁] at he
    exact ⟨place, read_error he⟩

/-- Flags of a group hold for its content and for nothing else. -/
theorem read_scoped (flags : Flags) :
    (∀ {p q : List Char} {tokens tokens' : List Token} {found found' : Flags},
      read p (flags ∪ .verbose) = .ok (tokens, found) →
      (∀ t g, read ('(' :: '?' :: 'x' :: ':' :: (p ++ ['\n', ')'])) flags = .ok (t, g) →
        g.has .verbose = false) →
      read q flags = .ok (tokens', found') → found'.has .verbose = false →
      (∃ place, read ('(' :: '?' :: 'x' :: ':' :: (p ++ '\n' :: ')' :: q)) flags =
          .error ⟨.tooDeep, place⟩) ∨
        ∃ g, read ('(' :: '?' :: 'x' :: ':' :: (p ++ '\n' :: ')' :: q)) flags =
          .ok (surround [.group tokens] [] tokens', g) ∧ g.has .verbose = false) ∧
    (∀ {p : List Char} {tokens : List Token} {found : Flags},
      read p flags = .ok (tokens, found) → found.has .verbose = false →
      (∃ place, read ('(' :: '?' :: '-' :: 'x' :: ':' :: (p ++ [')'])) (flags ∪ .verbose) =
          .error ⟨.tooDeep, place⟩) ∨
        ∃ g, read ('(' :: '?' :: '-' :: 'x' :: ':' :: (p ++ [')'])) (flags ∪ .verbose) =
          .ok ([.group tokens], g)) :=
  ⟨read_verboseGroup, read_plainGroup⟩

section

open scoped TreeEquality

theorem read_scoped_comment :
    read "a b#)(".toList (.dotAll ∪ .verbose) =
      .ok ([.literal 'a', .literal 'b'], .dotAll ∪ .verbose) ∧
    read " #|c".toList .dotAll =
      .ok ([.alternation [[.literal ' ', .literal '#'], [.literal 'c']]], .dotAll) ∧
    (∃ g, read "(?x:a b#)(\n) #|c".toList .dotAll =
      .ok ([.alternation [[.group [.literal 'a', .literal 'b'], .literal ' ', .literal '#'],
        [.literal 'c']]], g) ∧ g.has .verbose = false) ∧
    ∃ g, read "(?-x: #|c)".toList (.dotAll ∪ .verbose) =
      .ok ([.group [.alternation [[.literal ' ', .literal '#'], [.literal 'c']]]], g) := by
  have hp : read "a b#)(".toList (.dotAll ∪ .verbose) =
      .ok ([.literal 'a', .literal 'b'], .dotAll ∪ .verbose) := by decide +kernel
  have hq : read " #|c".toList .dotAll =
      .ok ([.alternation [[.literal ' ', .literal '#'], [.literal 'c']]], .dotAll) := by decide +kernel
  have hx : read "(?x:a b#)(\n)".toList .dotAll =
      .ok ([.group [.literal 'a', .literal 'b']], .dotAll) := by decide +kernel
  have hv : Flags.dotAll.has .verbose = false := by decide
  have shallow : (read "(?x:a b#)(\n) #|c".toList .dotAll).toBool = true := by decide +kernel
  have shallow' : (read "(?-x: #|c)".toList (.dotAll ∪ .verbose)).toBool = true := by decide +kernel
  have hgroup := (read_scoped .dotAll).1 hp (fun t g h => by
    cases hx.symm.trans h
    exact hv) hq hv
  have hplain := (read_scoped .dotAll).2 hq hv
  refine ⟨hp, hq, hgroup.resolve_left ?_, hplain.resolve_left ?_⟩
  · rintro ⟨place, he⟩
    cases shallow.symm.trans (congrArg Except.toBool he)
  · rintro ⟨place, he⟩
    cases shallow'.symm.trans (congrArg Except.toBool he)

end

end Pattern

end RegexTypeset
