import Mathlib.Data.List.Forall2
import RegexTypeset.Proofs.VerboseScope

/-! # Readings that go alike

Of the flags in force only the verbose one has a part in reading. So two readings go alike
that start with different flags, if both start verbose or neither does: they make the same
items and find the same flags. The same holds of readings of two texts that are cut into
the same lexemes; then the places of open groups are those of the other text.
-/
namespace RegexTypeset

namespace Flags

theorem union_assoc (f g h : Flags) : (f ∪ g) ∪ h = f ∪ (g ∪ h) :=
  Flags.ext (UInt32.or_assoc _ _ _)

theorem union_comm (f g : Flags) : f ∪ g = g ∪ f := Flags.ext (UInt32.or_comm _ _)

theorem union_self (f : Flags) : f ∪ f = f := Flags.ext UInt32.or_self

theorem union_empty (f : Flags) : f ∪ ∅ = f := Flags.ext UInt32.or_zero

theorem has_iff_union {f g : Flags} : f.has g = true ↔ f ∪ g = f := by
  have hu : f ∪ g = f ↔ f.bits.toBitVec ||| g.bits.toBitVec = f.bits.toBitVec := by
    rw [Flags.ext_iff, ← UInt32.toBitVec_inj]
    rfl
  have hh : f.has g = true ↔ f.bits.toBitVec &&& g.bits.toBitVec = g.bits.toBitVec := by
    rw [has, beq_iff_eq, ← UInt32.toBitVec_inj]
    rfl
  rw [hu, hh]
  constructor
  · intro h
    rw [← h]
    ext i hi
    cases hf : f.bits.toBitVec[i] <;> simp [hf]
  · intro h
    rw [← h]
    ext i hi
    cases hg : g.bits.toBitVec[i] <;> simp [hg]

end Flags

namespace GroupKind

/-- Whether flags are verbose inside a group and after it depends on no other flag. -/
theorem inner_verbose (kind : GroupKind) {outer outer' : Flags}
    (h : outer'.has .verbose = outer.has .verbose) :
    (kind.inner outer').has .verbose = (kind.inner outer).has .verbose := by
  cases kind <;> simp [inner, h]

theorem after_verbose (kind : GroupKind) {outer outer' last last' : Flags}
    (ho : outer'.has .verbose = outer.has .verbose) (hl : last'.has .verbose = last.has .verbose) :
    (kind.after outer' last').has .verbose = (kind.after outer last).has .verbose := by
  cases kind <;> simp [after, ho, hl]

end GroupKind

structure OpenGroup.Alike (place : List Char → List Char) (group group' : OpenGroup) : Prop where
  kind : group'.kind = group.kind
  around : group'.around = group.around
  opened : group'.opened = place group.opened
  outer : group'.outer.has .verbose = group.outer.has .verbose

namespace Nesting

/-- The same state of a reading, seen from another text and under other flags. Each reading has
found the same flags apart from those that were given. -/
structure Alike (place : List Char → List Char) (given given' : Flags) (n n' : Nesting) : Prop where
  scope : n'.scope.has .verbose = n.scope.has .verbose
  global : ∃ found, n.global = given ∪ found ∧ n'.global = given' ∪ found
  current : n'.current = n.current
  groups : List.Forall₂ (OpenGroup.Alike place) n.groups n'.groups

variable {place : List Char → List Char} {given given' : Flags} {n n' m : Nesting}
  {c c' : Char} {rest rest' more more' text : List Char} {lexeme : Lexeme}

theorem alike_start (h : given'.has .verbose = given.has .verbose) :
    Alike place given given' (start given) (start given') :=
  ⟨h, ⟨∅, given.union_empty.symm, given'.union_empty.symm⟩, rfl, .nil⟩

theorem Alike.depth (h : Alike place given given' n n') : n'.depth = n.depth :=
  h.groups.length_eq.symm

theorem Alike.closed (h : Alike place given given' n n') (hn : n.groups = []) : n'.groups = [] := by
  have hg := h.groups
  rw [hn] at hg
  exact List.forall₂_nil_left_iff.mp hg

/-- What a lexeme does to one state, it does to the other. -/
theorem Alike.push {opened : List Char} (h : Alike place given given' n n')
    (hp : n.push opened lexeme = .ok m) :
    ∃ m', n'.push (place opened) lexeme = .ok m' ∧ Alike place given given' m m' := by
  obtain ⟨found, hg, hg'⟩ := h.global
  cases lexeme with
  | filler =>
    cases hp
    exact ⟨n', rfl, h⟩
  | item token =>
    cases hp
    exact ⟨_, rfl, h.scope, h.global, congrArg (Alternatives.add · token) h.current, h.groups⟩
  | flags added =>
    cases hp
    refine ⟨_, rfl, by simp [addFlags, h.scope], ⟨found ∪ added, ?_, ?_⟩, h.current, h.groups⟩
    · rw [← Flags.union_assoc, ← hg]
      rfl
    · rw [← Flags.union_assoc, ← hg']
      rfl
  | bar =>
    cases hp
    exact ⟨_, rfl, h.scope, h.global, congrArg Alternatives.split h.current, h.groups⟩
  | opening kind =>
    cases hp
    exact ⟨_, rfl, kind.inner_verbose h.scope, h.global, rfl,
      .cons ⟨rfl, h.current, rfl, h.scope⟩ h.groups⟩
  | closing =>
    obtain ⟨group, groups, hn, rfl⟩ := exists_group_of_push hp
    have hs := h.groups
    rw [hn] at hs
    cases hn' : n'.groups with
    | nil => rw [hn'] at hs; cases hs
    | cons group' groups' =>
      rw [hn'] at hs
      obtain ⟨hgroup, hgroups⟩ := List.forall₂_cons.mp hs
      have hp' : n'.push (place opened) .closing = .ok { n' with
          scope := group'.kind.after group'.outer n'.scope
          current := group'.around.add (group'.kind.token n'.current.tokens)
          groups := groups' } := by
        simp only [Nesting.push, closeGroup?, hn']
      refine ⟨_, hp', ?_, h.global, ?_, hgroups⟩
      · rw [hgroup.kind]
        exact group.kind.after_verbose hgroup.outer h.scope
      · show group'.around.add (group'.kind.token n'.current.tokens) = _
        rw [hgroup.around, hgroup.kind, h.current]
  | quantifier q =>
    obtain ⟨current, hq, rfl⟩ := exists_quantify_of_push hp
    refine ⟨{ n' with current := current }, ?_, h.scope, h.global, rfl, h.groups⟩
    simp only [Nesting.push, h.current, hq]

/-- A step is one of the other reading, if its text starts with the same lexeme. -/
theorem Alike.step (h : Alike place given given' n n') (hs : Step n c rest lexeme m rest')
    (hc : c' = '(' → c = '(') (hp : place (c :: rest) = c' :: more)
    (hl : Lexeme.read n.isVerbose c' more = .ok (lexeme, more')) :
    ∃ m', Step n' c' more lexeme m' more' ∧ Alike place given given' m m' := by
  obtain ⟨m', hm', ha⟩ := h.push hs.effect
  refine ⟨m', ⟨fun he => ?_, ?_, hp ▸ hm'⟩, ha⟩
  · rw [h.depth]
    exact hs.shallow (hc he)
  · have hv : n'.isVerbose = n.isVerbose := h.scope
    rw [hv]
    exact hl

/-- Readings go alike if every lexeme of a state that is kept is one of the other text too. -/
theorem Alike.read_of (kept : Nesting → List Char → Prop) (hn : place [] = [])
    (step : ∀ {n c rest lexeme m rest'}, Step n c rest lexeme m rest' → kept n (c :: rest) →
      kept m rest' ∧ ∃ c' more, place (c :: rest) = c' :: more ∧ (c' = '(' → c = '(') ∧
        Lexeme.read n.isVerbose c' more = .ok (lexeme, place rest'))
    (h : Alike place given given' n n') (hk : kept n text) (hr : n.read text = .ok m) :
    ∃ m', n'.read (place text) = .ok m' ∧ Alike place given given' m m' := by
  induction hl : text.length using Nat.strongRecOn generalizing n n' text with
  | ind l ih =>
    cases text with
    | nil =>
      rw [read_nil] at hr
      cases hr
      exact ⟨n', by rw [hn, read_nil], h⟩
    | cons c rest =>
      obtain ⟨lexeme, n₁, rest', hs, hr⟩ := exists_step hr
      obtain ⟨hk, c', more, hp, hc, hl'⟩ := step hs hk
      obtain ⟨n₁', hs', h⟩ := h.step hs hc hp hl'
      rw [hp, hs'.read_eq]
      exact ih _ (hl ▸ hs.length_lt) h hk hr rfl

/-- Readings of one text go alike. -/
theorem Alike.read (h : Alike id given given' n n') (hr : n.read text = .ok m) :
    ∃ m', n'.read text = .ok m' ∧ Alike id given given' m m' := by
  refine Alike.read_of (fun _ _ => True) rfl (fun hs _ => ?_) h trivial hr
  exact ⟨trivial, _, _, rfl, id, hs.reads⟩

end Nesting

namespace Pattern

variable {place : List Char → List Char} {text text' : List Char} {given given' found : Flags}
  {tokens : List Token}

/-- A reading that goes alike makes the same tokens and finds the same directives. -/
theorem readOnce_of_alike (h : readOnce text given = .ok (tokens, found))
    (ha : ∀ m, (Nesting.start given).read text = .ok m →
      ∃ m', (Nesting.start given').read text' = .ok m' ∧ Nesting.Alike place given given' m m') :
    ∃ directives, found = given ∪ directives ∧
      readOnce text' given' = .ok (tokens, given' ∪ directives) := by
  obtain ⟨m, hr, hg, rfl, rfl⟩ := readOnce_eq_ok.mp h
  obtain ⟨m', hr', ha⟩ := ha m hr
  obtain ⟨directives, hd, hd'⟩ := ha.global
  exact ⟨directives, hd, readOnce_eq_ok.mpr ⟨m', hr', ha.closed hg, by rw [ha.current], hd'⟩⟩

/-- Given other flags, a reading makes the same tokens and finds the same directives, if the
verbose flag is given to both or to neither. -/
theorem readOnce_alike (hv : given'.has .verbose = given.has .verbose)
    (h : readOnce text given = .ok (tokens, found)) :
    ∃ directives, found = given ∪ directives ∧
      readOnce text given' = .ok (tokens, given' ∪ directives) :=
  readOnce_of_alike h fun _ hr => (Nesting.alike_start hv).read hr

end Pattern

end RegexTypeset
