import RegexTypeset.Proofs.ReadingSteps

/-! # Where verbose reading holds

A directive holds to the end of the innermost group that sets flags, and in the global
flags to the end. What matters is the scope that is left once all open groups are
closed: it is verbose if the reading started so, and only if the global flags are.
-/
namespace RegexTypeset

namespace Flags

theorem has_verbose (f : Flags) : f.has verbose = f.bits.toBitVec.getLsbD 6 := by
  have hb : verbose.bits.toBitVec = BitVec.twoPow 32 6 := by decide
  have he : f.has verbose = (f.bits.toBitVec &&& BitVec.twoPow 32 6 == BitVec.twoPow 32 6) := by
    rw [has, ← hb, Bool.eq_iff_iff, beq_iff_eq, beq_iff_eq, ← UInt32.toBitVec_and, UInt32.toBitVec_inj]
  rw [he, BitVec.and_twoPow]
  cases f.bits.toBitVec.getLsbD 6 <;> decide

@[simp] theorem has_verbose_union (f g : Flags) :
    (f ∪ g).has verbose = (f.has verbose || g.has verbose) := by
  simp only [has_verbose]
  exact BitVec.getLsbD_or

@[simp] theorem has_verbose_sdiff (f g : Flags) :
    (f \ g).has verbose = (f.has verbose && !g.has verbose) := by
  have hb : (f \ g).bits.toBitVec = f.bits.toBitVec &&& ~~~g.bits.toBitVec := rfl
  simp [has_verbose, hb]

end Flags

/-- After a group in which the flags do not change, they are those before it. -/
theorem GroupKind.after_inner (kind : GroupKind) (outer : Flags) :
    kind.after outer (kind.inner outer) = outer := by
  cases kind <;> rfl

namespace Nesting

def settle (scope : Flags) : List OpenGroup → Flags
  | [] => scope
  | group :: groups => settle (group.kind.after group.outer scope) groups

/-- Closing all open groups gives back some flags or passes on those in force. -/
theorem settle_cases (groups : List OpenGroup) :
    (∀ scope, settle scope groups = scope) ∨ ∃ outer, ∀ scope, settle scope groups = outer := by
  induction groups with
  | nil => exact Or.inl fun _ => rfl
  | cons group groups ih =>
    rcases group with ⟨kind, place, outer, around⟩
    cases kind with
    | flagged added removed => exact Or.inr ⟨settle outer groups, fun _ => rfl⟩
    | plain => exact ih
    | unrendered construct => exact ih

/-- The settled scope is verbose in a reading that started so, and nowhere without the global
flags being so. -/
structure ScopeKept (given : Flags) (n : Nesting) : Prop where
  given : given.has .verbose = true → (settle n.scope n.groups).has .verbose = true
  found : (settle n.scope n.groups).has .verbose = true → n.global.has .verbose = true

theorem scopeKept_start (flags : Flags) : (start flags).ScopeKept flags := ⟨id, id⟩

variable {n n' m : Nesting} {c : Char} {rest rest' text : List Char} {lexeme : Lexeme}
  {flags : Flags}

theorem ScopeKept.addFlags (h : n.ScopeKept flags) (added : Flags) :
    (n.addFlags added).ScopeKept flags := by
  rcases settle_cases n.groups with hs | ⟨outer, hs⟩
  · have hg := h.given
    have hf := h.found
    rw [hs] at hg hf
    constructor
    · intro hv
      simp [Nesting.addFlags, hs, hg hv]
    · intro hv
      simp only [Nesting.addFlags, hs, Flags.has_verbose_union, Bool.or_eq_true] at hv ⊢
      exact hv.imp_left hf
  · have hg := h.given
    have hf := h.found
    rw [hs] at hg hf
    constructor
    · intro hv
      simpa [Nesting.addFlags, hs] using hg hv
    · intro hv
      simp only [Nesting.addFlags, hs, Flags.has_verbose_union, Bool.or_eq_true] at hv ⊢
      exact Or.inl (hf hv)

theorem Step.scopeKept (h : Step n c rest lexeme n' rest') (hn : n.ScopeKept flags) :
    n'.ScopeKept flags := by
  have he := h.effect
  cases lexeme with
  | filler => cases he; exact hn
  | item token => cases he; exact ⟨hn.given, hn.found⟩
  | flags added => cases he; exact hn.addFlags added
  | bar => cases he; exact ⟨hn.given, hn.found⟩
  | opening kind =>
    cases he
    have hs : settle (kind.inner n.scope) (⟨kind, c :: rest, n.scope, n.current⟩ :: n.groups) =
        settle n.scope n.groups := by
      rw [settle, GroupKind.after_inner]
    exact ⟨fun hv => hs ▸ hn.given hv, fun hv => hn.found (hs ▸ hv)⟩
  | closing =>
    obtain ⟨group, groups, hg, rfl⟩ := exists_group_of_push he
    rcases hn with ⟨hgiven, hfound⟩
    rw [hg] at hgiven hfound
    exact ⟨hgiven, hfound⟩
  | quantifier q =>
    obtain ⟨current, -, rfl⟩ := exists_quantify_of_push he
    exact ⟨hn.given, hn.found⟩

/-- A reading that started verbose is so after its groups. -/
theorem isVerbose_of_given (h : (start flags).read text = .ok m) (hm : m.groups = [])
    (hv : flags.has .verbose = true) : m.isVerbose = true := by
  have hk := read_keeps Step.scopeKept h (scopeKept_start flags)
  have hg := hk.given hv
  rwa [hm] at hg

/-- After its groups a reading is verbose only if the global flags are. -/
theorem global_of_isVerbose (h : (start flags).read text = .ok m) (hm : m.groups = [])
    (hv : m.isVerbose = true) : m.global.has .verbose = true := by
  have hk := read_keeps Step.scopeKept h (scopeKept_start flags)
  have hf := hk.found
  rw [hm] at hf
  exact hf hv

theorem Step.global_verbose (h : Step n c rest lexeme n' rest')
    (hn : n.global.has .verbose = true) : n'.global.has .verbose = true := by
  have he := h.effect
  cases lexeme with
  | flags added => cases he; simp [addFlags, hn]
  | filler => cases he; exact hn
  | item token => cases he; exact hn
  | bar => cases he; exact hn
  | opening kind => cases he; exact hn
  | closing => obtain ⟨group, groups, -, rfl⟩ := exists_group_of_push he; exact hn
  | quantifier q => obtain ⟨current, -, rfl⟩ := exists_quantify_of_push he; exact hn

/-- Flags that were found stay found. -/
theorem global_verbose_of_read (h : n.read text = .ok m) (hn : n.global.has .verbose = true) :
    m.global.has .verbose = true :=
  read_keeps Step.global_verbose h hn

end Nesting

end RegexTypeset
