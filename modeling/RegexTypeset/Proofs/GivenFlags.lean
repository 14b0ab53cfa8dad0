import RegexTypeset.Proofs.AlikeReadings
import RegexTypeset.Proofs.TreeEquality

/-! # Flags that a pattern is given

Readings that go alike fail alike too: for the same cause and at the same place. So of the
flags that a pattern is given only the verbose one has a part in reading it; the others
are added to those that it has in the end. A pattern that is given all the flags that it
has in the end is read as before, also if these asked for a second reading.
-/
namespace RegexTypeset

namespace Flags

theorem union_right_comm (f g h : Flags) : (f ∪ g) ∪ h = (f ∪ h) ∪ g := by
  rw [union_assoc, union_comm g, union_assoc]

theorem has_union_left (f g : Flags) : (f ∪ g).has f = true := by
  rw [has_iff_union, union_right_comm, union_self]

end Flags

namespace Nesting

variable {given given' : Flags} {n n' : Nesting} {text place : List Char} {lexeme : Lexeme}
  {fault : Fault}

/-- A lexeme that has no effect on one state has none on the other. -/
theorem Alike.push_error (h : Alike id given given' n n') (hp : n.push place lexeme = .error fault) :
    n'.push place lexeme = .error fault := by
  cases lexeme with
  | filler => cases hp
  | item token => cases hp
  | flags added => cases hp
  | bar => cases hp
  | opening kind => cases hp
  | closing =>
    cases hn : n.groups with
    | nil =>
      simp only [Nesting.push, closeGroup?, hn] at hp
      simp only [Nesting.push, closeGroup?, h.closed hn]
      exact hp
    | cons group groups =>
      simp only [Nesting.push, closeGroup?, hn] at hp
      cases hp
  | quantifier q =>
    simp only [Nesting.push, h.current] at hp ⊢
    split at hp
    case h_1 => cases hp
    case h_2 => exact hp

/-- If one reading fails, the other one fails in the same way. -/
theorem Alike.read_error (h : Alike id given given' n n') (hr : n.read text = .error fault) :
    n'.read text = .error fault := by
  induction hl : text.length using Nat.strongRecOn generalizing n n' text with
  | ind l ih =>
    cases text with
    | nil =>
      rw [read_nil] at hr
      cases hr
    | cons c rest =>
      have hv : n'.isVerbose = n.isVerbose := h.scope
      rw [read_cons] at hr
      rw [read_cons, h.depth, hv]
      split at hr
      case isTrue deep =>
        rw [if_pos deep]
        exact hr
      case isFalse shallow =>
        rw [if_neg shallow]
        split at hr
        case h_1 => exact hr
        case h_2 lexeme rest' hlex =>
          split at hr
          case h_1 hp =>
            cases hr
            simp only [h.push_error hp]
          case h_2 m hp =>
            obtain ⟨m', hp', hm⟩ := h.push hp
            have shorter := (Lexeme.suffix_of_read hlex).length_le
            simp only [id] at hp'
            simp only [hp']
            exact ih rest'.length (by simp only [List.length_cons] at hl; omega) hm hr rfl

/-- At the end the same group is open, or the same tokens are made. -/
theorem Alike.finish (h : Alike id given given' n n') : n'.finish = n.finish := by
  have hg := h.groups
  cases hn : n.groups with
  | nil => simp only [Nesting.finish, hn, h.closed hn, h.current]
  | cons group groups =>
    rw [hn] at hg
    obtain ⟨group', groups', halike, -, hn'⟩ := List.forall₂_cons_left_iff.mp hg
    simp only [Nesting.finish, hn, hn', halike.opened, id]

end Nesting

namespace Pattern

variable {text : List Char} {flags given given' found : Flags} {tokens : List Token} {fault : Fault}

/-- Given other flags, a reading fails in the same way, if the verbose flag is given to both or to
neither. -/
theorem readOnce_error_alike (hv : given'.has .verbose = given.has .verbose)
    (h : readOnce text given = .error fault) : readOnce text given' = .error fault := by
  have ha : Nesting.Alike id given given' (.start given) (.start given') := Nesting.alike_start hv
  simp only [readOnce] at h
  split at h
  case h_1 hr =>
    simp only [readOnce, ha.read_error hr]
    exact h
  case h_2 m hr =>
    obtain ⟨m', hr', hm⟩ := ha.read hr
    simp only [readOnce, hr', hm.finish]
    split at h
    case h_1 => exact h
    case h_2 => cases h

/-- One reading passes on flags that are not verbose. -/
theorem readOnce_union (text : List Char) (flags : Flags) {added : Flags}
    (ha : added.has .verbose = false) :
    readOnce text (flags ∪ added) =
      (readOnce text flags).map fun (tokens, found) => (tokens, found ∪ added) := by
  have hv : (flags ∪ added).has .verbose = flags.has .verbose := by simp [ha]
  cases h : readOnce text flags with
  | error fault => exact readOnce_error_alike hv h
  | ok result =>
    obtain ⟨tokens, found⟩ := result
    obtain ⟨directives, rfl, hr⟩ := readOnce_alike hv h
    rw [hr, Flags.union_right_comm]
    rfl

/-- So does the second one. -/
theorem read_union (text : List Char) (flags : Flags) {added : Flags}
    (ha : added.has .verbose = false) :
    read text (flags ∪ added) =
      (read text flags).map fun (tokens, found) => (tokens, found ∪ added) := by
  simp only [read, readOnce_union text flags ha]
  cases ho : readOnce text flags with
  | error fault => rfl
  | ok result =>
    obtain ⟨tokens, found⟩ := result
    have hx : rereads (flags ∪ added) (found ∪ added) = rereads flags found := by
      simp [rereads, ha]
    simp only [Except.map, hx]
    split
    case isTrue => exact readOnce_union text found ha
    case isFalse => rfl

/-- The flags that a pattern has in the end are those given to its last reading and those found
in it. -/
theorem exists_last_reading (h : read text flags = .ok (tokens, found)) :
    ∃ given directives, readOnce text given = .ok (tokens, found) ∧ found = given ∪ directives ∧
      (found.has .verbose = true → given.has .verbose = true) ∧ given.has flags = true := by
  simp only [read] at h
  split at h
  case h_1 => cases h
  case h_2 tokens₁ found₁ ho =>
    obtain ⟨first, rfl, -⟩ := readOnce_alike rfl ho
    split at h
    case isTrue hr =>
      obtain ⟨second, rfl, -⟩ := readOnce_alike rfl h
      simp only [rereads, Bool.and_eq_true] at hr
      exact ⟨_, second, h, rfl, fun _ => hr.1, Flags.has_union_left flags first⟩
    case isFalse hr =>
      cases h
      refine ⟨flags, first, ho, rfl, fun hv => ?_, ?_⟩
      · by_contra hn
        exact hr (by simp [rereads, hv, hn])
      · rw [Flags.has_iff_union, Flags.union_self]

/-- Given all the flags that it has in the end, a pattern is read once, as before. -/
theorem read_found (h : read text flags = .ok (tokens, found)) :
    read text found = .ok (tokens, found) := by
  obtain ⟨given, directives, ho, rfl, hv, -⟩ := exists_last_reading h
  have hsame : (given ∪ directives).has .verbose = given.has .verbose := by
    cases hg : given.has .verbose with
    | true => simp [hg]
    | false =>
      rw [← Bool.not_eq_true]
      intro ht
      exact absurd (hg.symm.trans (hv ht)) (by decide)
  obtain ⟨directives', he, hr⟩ := readOnce_alike hsame ho
  have hfound : (given ∪ directives) ∪ directives' = given ∪ directives := by
    rw [Flags.union_right_comm, ← he, Flags.union_assoc, Flags.union_self]
  have hx : rereads (given ∪ directives) (given ∪ directives) = false := by
    cases hg : (given ∪ directives).has .verbose <;> simp [rereads, hg]
  simp [read, hr, hfound, hx]

theorem found_has_given (h : read text flags = .ok (tokens, found)) : found.has flags = true := by
  obtain ⟨given, directives, -, rfl, -, hg⟩ := exists_last_reading h
  rw [Flags.has_iff_union] at hg ⊢
  rw [Flags.union_right_comm, hg]

theorem compile_eq_ok_iff {text : String} {pattern : Pattern} :
    compile text flags = .ok pattern ↔
      read text.toList flags = .ok (pattern.tokens, pattern.flags) ∧ pattern.text = text := by
  simp only [compile]
  cases hr : read text.toList flags with
  | error fault => simp
  | ok result =>
    rcases pattern with ⟨text', flags', tokens'⟩
    simp only [Except.ok.injEq, Pattern.mk.injEq, Prod.ext_iff]
    constructor
    · rintro ⟨rfl, rfl, rfl⟩
      exact ⟨⟨rfl, rfl⟩, rfl⟩
    · rintro ⟨⟨rfl, rfl⟩, rfl⟩
      exact ⟨rfl, rfl, rfl⟩

/-- Flags that are given beside others, and are not verbose, change nothing but the flags in the
end. A pattern has the flags that it is given. -/
theorem compile_union (text : String) (flags : Flags) :
    (∀ added : Flags, added.has .verbose = false →
      compile text (flags ∪ added) =
        (compile text flags).map fun pattern => { pattern with flags := pattern.flags ∪ added }) ∧
    ∀ pattern, compile text flags = .ok pattern → pattern.flags.has flags = true := by
  constructor
  · intro added ha
    simp only [compile, read_union text.toList flags ha]
    cases read text.toList flags <;> rfl
  · intro pattern h
    exact found_has_given (compile_eq_ok_iff.mp h).1

/-- A pattern compiled with the flags that it has is the same pattern. -/
theorem compile_own_flags (text : String) (flags : Flags) (pattern : Pattern)
    (h : compile text flags = .ok pattern) : compile text pattern.flags = .ok pattern := by
  obtain ⟨hr, rfl⟩ := compile_eq_ok_iff.mp h
  exact compile_eq_ok_iff.mpr ⟨read_found hr, rfl⟩

section

open scoped TreeEquality

/-- One text asks for a second reading, the other one fails in it. -/
theorem compile_union_reread :
    compile "(?s)é b(?x)#(" (.multiline ∪ (.ignoreCase ∪ .debug)) =
      .ok ⟨"(?s)é b(?x)#(", .multiline ∪ .dotAll ∪ .verbose ∪ (.ignoreCase ∪ .debug),
        [.literal 'é', .literal 'b']⟩ ∧
    compile "(?x)é | *" (.multiline ∪ (.ignoreCase ∪ .debug)) = .error ⟨.nothingToRepeat, 9⟩ ∧
    (Flags.multiline ∪ .dotAll ∪ .verbose).has .multiline = true := by
  have ha : (Flags.ignoreCase ∪ .debug).has .verbose = false := by decide
  have hr : read "(?s)é b(?x)#(".toList .multiline =
      .ok ([.literal 'é', .literal 'b'], .multiline ∪ .dotAll ∪ .verbose) := by decide +kernel
  have hc : compile "(?s)é b(?x)#(" .multiline =
      .ok ⟨"(?s)é b(?x)#(", .multiline ∪ .dotAll ∪ .verbose, [.literal 'é', .literal 'b']⟩ :=
    compile_eq_ok_iff.mpr ⟨hr, rfl⟩
  have hr' : read "(?x)é | *".toList .multiline = .error ⟨.nothingToRepeat, ['*']⟩ := by
    decide +kernel
  have hc' : compile "(?x)é | *" .multiline = .error ⟨.nothingToRepeat, 9⟩ := by
    simp only [compile, hr']
    exact congrArg Except.error (by decide)
  refine ⟨?_, ?_, (compile_union _ _).2 _ hc⟩
  · rw [(compile_union _ _).1 _ ha, hc]
    rfl
  · rw [(compile_union _ _).1 _ ha, hc']
    rfl

/-- The first reading finds a flag in what is a comment for the second one, and repeats the line
end behind it. -/
theorem compile_own_flags_comment :
    compile "a #(?i)\n(?x)*" ∅ = .ok ⟨"a #(?i)\n(?x)*", .ignoreCase ∪ .verbose,
        [.repeated ⟨0, none, false⟩ (.literal 'a')]⟩ ∧
      compile "a #(?i)\n(?x)*" (.ignoreCase ∪ .verbose) = .ok ⟨"a #(?i)\n(?x)*",
        .ignoreCase ∪ .verbose, [.repeated ⟨0, none, false⟩ (.literal 'a')]⟩ := by
  have hr : read "a #(?i)\n(?x)*".toList ∅ =
      .ok ([.repeated ⟨0, none, false⟩ (.literal 'a')], .ignoreCase ∪ .verbose) := by decide +kernel
  have hc : compile "a #(?i)\n(?x)*" ∅ = .ok ⟨"a #(?i)\n(?x)*", .ignoreCase ∪ .verbose,
      [.repeated ⟨0, none, false⟩ (.literal 'a')]⟩ := compile_eq_ok_iff.mpr ⟨hr, rfl⟩
  exact ⟨hc, compile_own_flags _ ∅ _ hc⟩

end

end Pattern

end RegexTypeset
