import RegexTypeset.Proofs.ResumedReading
import RegexTypeset.Proofs.SampleReading

/-! # A pattern in a group, in front of another one

A whole pattern between the parentheses of a group is read there as it is alone, if the
flags at the start of the group are as verbose as those that it is read with alone. A
line end in front of the closing parenthesis ends a comment of a verbose pattern. What
follows is read as it is alone, under the flags that the group leaves.
-/
namespace RegexTypeset

namespace Nesting

variable {given : Flags} {text : List Char} {n m m' : Nesting}

theorem Whole.global_union (hw : Whole n text m) : m.global ∪ n.global = m.global := by
  obtain ⟨_, -, ha⟩ := hw.transfer rfl
  obtain ⟨found, hg, -⟩ := ha.global
  rw [hg, Flags.union_comm n.global, Flags.union_assoc, Flags.union_self]

/-- What is found beside given flags joins flags that hold those already. -/
theorem Alike.global_eq {place : List Char → List Char} {given given' : Flags}
    (h : Alike place given given' m m') (hg : given' ∪ given = given') :
    m'.global = given' ∪ m.global := by
  obtain ⟨found, hm, hm'⟩ := h.global
  rw [hm', hm, ← Flags.union_assoc, hg]

theorem Whole.isPlain (hw : Whole (start given) text m) : m.current.IsPlain :=
  (read_keeps Step.fit hw.reads (fit_start given)).current.isPlain

/-- A pattern without verbose flags is not verbose at its end. -/
theorem Whole.not_verbose (hw : Whole (start given) text m) (hv : m.global.has .verbose = false) :
    m.isVerbose = false ∧ given.has .verbose = false := by
  constructor <;> rw [← Bool.not_eq_true] <;> intro ht
  · exact absurd (hv.symm.trans (global_of_isVerbose hw.reads hw.closed ht)) (by decide)
  · exact absurd (hv.symm.trans (global_verbose_of_read hw.reads ht)) (by decide)

end Nesting

namespace Pattern

variable {text : List Char} {flags found : Flags} {tokens : List Token} {fault : Fault}

theorem readOnce_eq_ok_iff_whole : readOnce text flags = .ok (tokens, found) ↔
    ∃ m, Nesting.Whole (.start flags) text m ∧ m.current.tokens = tokens ∧ m.global = found := by
  rw [readOnce_eq_ok]
  constructor
  · rintro ⟨m, hr, hg, ht, hf⟩
    exact ⟨m, ⟨hr, hg⟩, ht, hf⟩
  · rintro ⟨m, hw, ht, hf⟩
    exact ⟨m, hw.reads, hw.closed, ht, hf⟩

/-- Where no verbose flag is found that was not given, one reading is taken. -/
theorem read_of_readOnce (h : readOnce text flags = .ok (tokens, found))
    (hv : found.has .verbose = true → flags.has .verbose = true) :
    read text flags = .ok (tokens, found) := by
  have hr : rereads flags found = false := by
    cases hf : found.has .verbose with
    | false => simp [rereads, hf]
    | true => simp [rereads, hv hf]
  simp [read, h, hr]

theorem readOnce_of_read (h : read text flags = .ok (tokens, found))
    (hv : found.has .verbose = true → flags.has .verbose = true) :
    readOnce text flags = .ok (tokens, found) := by
  simp only [read] at h
  split at h
  case h_1 => cases h
  case h_2 tokens₁ found₁ ho =>
    split at h
    case isTrue hr =>
      simp only [rereads, Bool.and_eq_true, Bool.not_eq_true'] at hr
      have ht := hv (verbose_of_readOnce h hr.1)
      exact absurd (hr.2.symm.trans ht) (by decide)
    case isFalse =>
      cases h
      exact ho

theorem read_error (h : (Nesting.start flags).read text = .error fault) :
    read text flags = .error fault := by
  simp [read, readOnce, h]

end Pattern

namespace Nesting

/-- The end of a group, on a line of its own if the content is verbose. -/
def groupEnd (verbose : Bool) : List Char := if verbose then ['\n', ')'] else [')']

def inside (kind : GroupKind) (flags : Flags) : Nesting := ⟨kind.inner flags, flags, .empty, []⟩

variable {kind : GroupKind} {header content behind : List Char} {flags : Flags}
  {m n : Nesting}

theorem shallow_start (flags : Flags) : (start flags).depth < maxDepth := Nat.zero_lt_succ 199

theorem inert_groupEnd (verbose : Bool) (behind : List Char) :
    ∀ d ∈ (groupEnd verbose ++ behind).head?, Inert d := by
  cases verbose <;> simp [groupEnd, Inert]

/-- A text that opens a group in front of its content and of what ends it. -/
def Opens (header content : List Char) (verbose : Bool) (kind : GroupKind) : Prop :=
  ∀ behind, GroupHeader.read (header ++ (content ++ (groupEnd verbose ++ behind))) =
    .ok (.opening kind, content ++ (groupEnd verbose ++ behind))

/-- At the end of its content a group ends, also if the content ends in a comment. -/
theorem Whole.read_groupEnd (hw : Whole n content m) (hr : HasRoom n.depth n.restart content)
    {group : OpenGroup} {groups : List OpenGroup} (hg : n.groups = group :: groups)
    (behind : List Char) :
    n.read (content ++ (groupEnd m.isVerbose ++ behind)) = (⟨group.kind.after group.outer m.scope,
      m.global, group.around.add (group.kind.token (n.current.andThen m.current).tokens), groups⟩ :
        Nesting).read behind := by
  have closes : (n.goOn m).read (')' :: behind) = (⟨group.kind.after group.outer m.scope,
      m.global, group.around.add (group.kind.token (n.current.andThen m.current).tokens), groups⟩ :
        Nesting).read behind := read_closing (n := n.goOn m) hg behind
  have hread := hw.read_from hr (inert_groupEnd m.isVerbose behind)
  rw [← closes]
  cases hv : m.isVerbose with
  | false =>
    rw [hv] at hread
    rcases hread with hread | ⟨ht, -⟩
    · exact hread
    · cases ht
  | true =>
    -- the line end is filler, or has ended a comment already
    have hline : (n.goOn m).read ('\n' :: ')' :: behind) = (n.goOn m).read (')' :: behind) := by
      have hv' : (n.goOn m).isVerbose = true := hv
      refine read_lexeme .filler (fun he => absurd he (by decide)) ?_ rfl
      rw [hv']
      rfl
    rw [hv] at hread
    rcases hread with hread | ⟨-, hread⟩
    · exact hread.trans hline
    · exact hread

/-- A group whose content is a whole pattern is read in front of any text. -/
theorem Whole.read_group (hw : Whole (inside kind flags) content m)
    (hr : HasRoom 1 (inside kind flags) content) (hh : Opens header content m.isVerbose kind)
    (behind : List Char) :
    (start flags).read ('(' :: (header ++ (content ++ (groupEnd m.isVerbose ++ behind)))) =
      (⟨kind.after flags m.scope, m.global, ⟨[], [kind.token m.current.tokens]⟩, []⟩ :
        Nesting).read behind := by
  let text := content ++ (groupEnd m.isVerbose ++ behind)
  let n := (start flags).openGroup ('(' :: (header ++ text)) kind
  have hw' : Whole n content m := ⟨hw.reads, hw.closed⟩
  have closes := hw'.read_groupEnd hr rfl behind
  rw [read_opening (shallow_start flags) (hh behind), closes]
  have hcurrent : n.current.andThen m.current = m.current := Alternatives.empty_andThen m.current
  rw [hcurrent]
  rfl

/-- A group is too deep if there is no room for the groups of its content. -/
theorem Whole.read_group_tooDeep (hw : Whole (inside kind flags) content m)
    (hr : ¬ HasRoom 1 (inside kind flags) content) (hh : Opens header content m.isVerbose kind)
    (behind : List Char) :
    ∃ place, (start flags).read ('(' :: (header ++ (content ++ (groupEnd m.isVerbose ++ behind)))) =
      .error ⟨.tooDeep, place⟩ := by
  let text := content ++ (groupEnd m.isVerbose ++ behind)
  have hw' : Whole ((start flags).openGroup ('(' :: (header ++ text)) kind) content m :=
    ⟨hw.reads, hw.closed⟩
  rw [read_opening (shallow_start flags) (hh behind)]
  exact hw'.read_from_tooDeep hr (inert_groupEnd m.isVerbose behind)

/-- A whole pattern behind a group that leaves the flags as verbose as they were. -/
theorem Whole.readOnce_group (hw : Whole (inside kind flags) content m)
    (hr : HasRoom 1 (inside kind flags) content) (hh : Opens header content m.isVerbose kind)
    (hb : Whole (start flags) behind n)
    (ha : (kind.after flags m.scope).has .verbose = flags.has .verbose) :
    Pattern.readOnce ('(' :: (header ++ (content ++ (groupEnd m.isVerbose ++ behind)))) flags =
      .ok (surround [kind.token m.current.tokens] [] n.current.tokens, m.global ∪ n.global) := by
  let after : Nesting := ⟨kind.after flags m.scope, m.global, ⟨[], [kind.token m.current.tokens]⟩, []⟩
  have hv : after.isVerbose = (start flags).isVerbose := ha
  obtain ⟨n', hn', halike⟩ := hb.transfer hv
  have hread := (hw.read_group hr hh behind).trans (hn'.read_last rfl)
  have hcurrent : (after.goOn n').current = n.current.precede [kind.token m.current.tokens] := by
    rw [Alternatives.precede_eq_andThen, ← halike.current]
    rfl
  have htokens : (after.goOn n').current.tokens =
      surround [kind.token m.current.tokens] [] n.current.tokens := by
    rw [hcurrent]
    exact Alternatives.tokens_surround hb.isPlain [kind.token m.current.tokens] []
  have hglobal : n'.global = m.global ∪ n.global := halike.global_eq hw.global_union
  exact Pattern.readOnce_eq_ok.mpr ⟨_, hread, rfl, htokens, hglobal⟩

end Nesting

end RegexTypeset
