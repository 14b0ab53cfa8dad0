import RegexTypeset.Proofs.ResumedReading

/-! # A reading inside a longer text

Items read before a pattern stay in front of what the pattern adds, and text behind it
only moves the places of its open groups. So a reading of the pattern alone is one of
the pattern in the longer text, up to its end. Conversely the pattern alone is read if
the longer text is, unless a quantifier of it takes one of the items in front.
-/
namespace RegexTypeset

def spaceItems (k : Nat) : List Token := List.replicate k (.literal ' ')

theorem spaceItems_append (j k : Nat) : spaceItems j ++ spaceItems k = spaceItems (j + k) :=
  List.replicate_append_replicate

namespace Alternatives

theorem precede_empty_list (a : Alternatives) : a.precede [] = a := by
  rw [precede_eq_andThen]
  exact empty_andThen a

/-- A quantifier finds an item of its own, or there was none but those in front. -/
theorem quantify_of_precede {a b : Alternatives} {before : List Token} {q : Quantifier}
    (h : (a.precede before).quantify q = .ok b) :
    (∃ b', a.quantify q = .ok b') ∨ before ≠ [] ∧ a = empty := by
  rcases a with ⟨branches, _ | ⟨item, items⟩⟩
  · cases branches with
    | cons branch branches => cases h
    | nil =>
      refine Or.inr ⟨?_, rfl⟩
      rintro rfl
      cases h
  · left
    have hp : precede ⟨branches, item :: items⟩ before = (precede ⟨branches, items⟩ before).add item :=
      (precede_add ⟨branches, items⟩ before item).symm
    rw [hp] at h
    cases item <;> simp only [quantify, add] at h ⊢ <;> first | exact ⟨_, rfl⟩ | cases h

end Alternatives

namespace Nesting

def precedeOutermost (before : List Token) (groups : List OpenGroup) (a : Alternatives) :
    Alternatives :=
  if groups.isEmpty then a.precede before else a

def groupsWithin (before : List Token) (behind : List Char) : List OpenGroup → List OpenGroup
  | [] => []
  | group :: groups =>
    { group with
      opened := group.opened ++ behind
      around := precedeOutermost before groups group.around } :: groupsWithin before behind groups

/-- The same state of a reading with items in front of all that was read, and with text behind. -/
def within (before : List Token) (behind : List Char) (n : Nesting) : Nesting :=
  { n with
    current := precedeOutermost before n.groups n.current
    groups := groupsWithin before behind n.groups }

variable {n n' m : Nesting} {c : Char} {rest rest' text place : List Char} {lexeme : Lexeme}
  {before : List Token} {behind spaces : List Char}

theorem precedeOutermost_eq (before : List Token) (groups : List OpenGroup) (a : Alternatives) :
    precedeOutermost before groups a = outermost ⟨[], before.reverse⟩ groups a := by
  cases groups with
  | nil => exact Alternatives.precede_eq_andThen a before
  | cons => rfl

theorem groupsWithin_eq (before : List Token) (behind : List Char) (groups : List OpenGroup) :
    groupsWithin before behind groups = resumeGroups ⟨[], before.reverse⟩ behind groups := by
  induction groups with
  | nil => rfl
  | cons group groups ih => rw [groupsWithin, resumeGroups, ih, precedeOutermost_eq]

/-- Items in front are alternatives that were begun. -/
theorem within_eq_resume (n : Nesting) (before : List Token) (behind : List Char) :
    n.within before behind = n.resume ⟨[], before.reverse⟩ [] behind := by
  rw [within, resume, precedeOutermost_eq, groupsWithin_eq, List.append_nil]

@[simp] theorem isVerbose_within : (n.within before behind).isVerbose = n.isVerbose := rfl

@[simp] theorem depth_within : (n.within before behind).depth = n.depth := by
  rw [within_eq_resume, depth_resume]
  rfl

/-- Without open groups only the items are in front. -/
theorem within_of_groups (h : n.groups = []) (before : List Token) (behind : List Char) :
    n.within before behind = { n with current := n.current.precede before } := by
  rcases n with ⟨scope, global, current, groups⟩
  obtain rfl : groups = [] := h
  rfl

theorem within_start (before : List Token) (behind : List Char) (flags : Flags) :
    (start flags).within before behind = (start flags).addAll before := by
  rw [within_of_groups rfl]
  simp [start, addAll, Alternatives.empty, Alternatives.precede_nil, Alternatives.addAll]

/-- What a lexeme does, it does inside a longer text. -/
theorem push_within (h : n.push place lexeme = .ok n') (before : List Token) (behind : List Char) :
    (n.within before behind).push (place ++ behind) lexeme = .ok (n'.within before behind) := by
  rw [within_eq_resume, within_eq_resume]
  exact push_resume h _ _ behind

/-- A reading goes on inside a longer text as it does alone. Only a comment at the end of a
verbose reading takes a part of the text behind. -/
theorem read_within (hb : ∀ d ∈ behind.head?, Inert d) (h : n.read text = .ok m)
    (before : List Token) :
    (n.within before behind).read (text ++ behind) = (m.within before behind).read behind ∨
      m.isVerbose = true ∧ (n.within before behind).read (text ++ behind) =
        (m.within before behind).read (Lexeme.nextLine behind) := by
  rw [within_eq_resume, within_eq_resume]
  have hr : HasRoom ([] : List OpenGroup).length n text := hasRoom_zero h
  exact hr.read_resume hb h _

def addSpaces (n : Nesting) (k : Nat) : Nesting :=
  if n.isVerbose then n else n.addAll (spaceItems k)

theorem groups_addSpaces (n : Nesting) (k : Nat) : (n.addSpaces k).groups = n.groups := by
  unfold addSpaces
  split <;> rfl

theorem global_addSpaces (n : Nesting) (k : Nat) : (n.addSpaces k).global = n.global := by
  unfold addSpaces
  split <;> rfl

theorem isVerbose_addSpaces (n : Nesting) (k : Nat) : (n.addSpaces k).isVerbose = n.isVerbose := by
  unfold addSpaces
  split <;> rfl

theorem read_space (n : Nesting) (rest : List Char) :
    n.read (' ' :: rest) = (n.addSpaces 1).read rest := by
  have hd : ' ' = '(' → n.depth < maxDepth := fun h => absurd h (by decide)
  unfold addSpaces
  split
  case isTrue hv =>
    have hl : Lexeme.read n.isVerbose ' ' rest = .ok (.filler, rest) := by
      rw [hv]
      rfl
    exact read_lexeme .filler hd hl rfl
  case isFalse hv =>
    have hl : Lexeme.read n.isVerbose ' ' rest = .ok (.item (.literal ' '), rest) := by
      rw [Bool.not_eq_true] at hv
      rw [hv]
      rfl
    exact read_lexeme (.item (.literal ' ')) hd hl rfl

theorem addSpaces_addSpaces (n : Nesting) (j k : Nat) :
    (n.addSpaces j).addSpaces k = n.addSpaces (j + k) := by
  unfold addSpaces
  by_cases hv : n.isVerbose = true
  · simp [hv]
  · simp [hv, addAll_addAll, spaceItems_append]

theorem read_spaces (n : Nesting) (k : Nat) (text : List Char) :
    n.read (List.replicate k ' ' ++ text) = (n.addSpaces k).read text := by
  induction k generalizing n with
  | zero =>
    have hz : n.addSpaces 0 = n := by
      unfold addSpaces
      split <;> rfl
    rw [hz]
    rfl
  | succ k ih =>
    rw [List.replicate_succ, List.cons_append, read_space, ih, addSpaces_addSpaces, Nat.add_comm]

theorem nextLine_spaces (k : Nat) : Lexeme.nextLine (List.replicate k ' ') = [] := by
  apply Lexeme.nextLine_eq_nil
  intro hm
  exact absurd (List.eq_of_mem_replicate hm) (by decide)

/-- Spaces behind a pattern are read after it. -/
theorem read_spaces_behind (h : n.read text = .ok m) (before : List Token) (k : Nat) :
    (n.within before (List.replicate k ' ')).read (text ++ List.replicate k ' ') =
      .ok ((m.within before (List.replicate k ' ')).addSpaces k) := by
  rcases read_within (inert_spaces k) h before with hr | ⟨hv, hr⟩
  · have hs := read_spaces (m.within before (List.replicate k ' ')) k []
    rw [List.append_nil, read_nil] at hs
    rw [hr, hs]
  · rw [hr, nextLine_spaces, read_nil]
    unfold addSpaces
    rw [isVerbose_within, if_pos hv]

def edge (verbose : Bool) (k : Nat) : List Token :=
  if verbose then [] else spaceItems k

theorem addSpaces_start (flags : Flags) (k : Nat) (behind : List Char) :
    (start flags).addSpaces k = (start flags).within (edge (flags.has .verbose) k) behind := by
  rw [within_start]
  unfold addSpaces edge
  by_cases hv : flags.has .verbose = true
  · have hs : (start flags).isVerbose = true := hv
    rw [if_pos hs, if_pos hv, addAll_nil]
  · have hs : ¬ (start flags).isVerbose = true := hv
    rw [if_neg hs, if_neg hv]

/-- Spaces on both sides of a pattern whose groups are closed. -/
theorem read_spaces_around {flags : Flags} (h : (start flags).read text = .ok m) (hm : m.groups = [])
    (j k : Nat) :
    (start flags).read (List.replicate j ' ' ++ (text ++ List.replicate k ' ')) =
      .ok (Nesting.addSpaces
        { m with current := m.current.precede (edge (flags.has .verbose) j) } k) := by
  rw [read_spaces, addSpaces_start flags j (List.replicate k ' '), read_spaces_behind h,
    within_of_groups hm]

end Nesting

end RegexTypeset
