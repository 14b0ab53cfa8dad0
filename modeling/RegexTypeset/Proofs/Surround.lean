import Mathlib.Data.List.ModifyLast
import RegexTypeset.Nesting
import RegexTypeset.Proofs.TreeShape

/-! # Tokens put around a pattern

What stands before a pattern joins its first branch, and what stands behind it joins its
last one. The alternatives of a reading have the same two operations; on their tokens
they agree with those on content.
-/
namespace RegexTypeset

def surround (before after : List Token) : List Token → List Token
  | [.alternation branches] =>
    [.alternation ((branches.modifyHead (before ++ ·)).modifyLast (· ++ after))]
  | items => before ++ items ++ after

/-- Content that is not one alternation is a sequence. -/
def IsSequence (items : List Token) : Prop := ∀ branches, items ≠ [.alternation branches]

theorem surround_sequence {items : List Token} (h : IsSequence items) (before after : List Token) :
    surround before after items = before ++ items ++ after := by
  unfold surround
  split
  case h_1 branches => exact absurd rfl (h branches)
  case h_2 => rfl

theorem surround_alternation (before after first last : List Token) (middle : List (List Token)) :
    surround before after [.alternation (first :: middle ++ [last])] =
      [.alternation ((before ++ first) :: middle ++ [last ++ after])] := by
  have h := List.modifyLast_concat (· ++ after) last ((before ++ first) :: middle)
  simpa [surround] using h

/-- Items are no lone alternation, if no leaf is one. -/
theorem isSequence_of_items {leaf : Token → Prop}
    (hl : ∀ branches, ¬ leaf (.alternation branches)) {items : List Token}
    (h : ∀ token ∈ items, Item leaf token) : IsSequence items := by
  rintro branches rfl
  cases h _ List.mem_cons_self with
  | leaf h => exact hl branches h

/-- A list of at least two branches has a first one and, apart from it, a last one. -/
theorem exists_first_last {branches : List (List Token)} (h : 2 ≤ branches.length) :
    ∃ first middle last, branches = first :: middle ++ [last] := by
  cases branches with
  | nil => simp at h
  | cons first rest =>
    rcases List.eq_nil_or_concat rest with rfl | ⟨middle, last, rfl⟩
    · simp at h
    · exact ⟨first, middle, last, by simp⟩

namespace Alternatives

def addAll (a : Alternatives) (tokens : List Token) : Alternatives :=
  { a with items := tokens.reverse ++ a.items }

def precede (a : Alternatives) (before : List Token) : Alternatives :=
  if a.branches.isEmpty then { a with items := a.items ++ before.reverse }
  else { a with branches := a.branches.modifyLast (before ++ ·) }

/-- Alternatives read after earlier ones: their first branch goes on where those end. -/
def andThen (earlier a : Alternatives) : Alternatives :=
  if a.branches.isEmpty then ⟨earlier.branches, a.items ++ earlier.items⟩
  else ⟨a.branches.modifyLast (earlier.items.reverse ++ ·) ++ earlier.branches, a.items⟩

def addBranches (a : Alternatives) : List (List Token) → Alternatives
  | [] => a
  | [branch] => a.addAll branch
  | branch :: branches => (a.addAll branch).split.addBranches branches

def addContent (a : Alternatives) : List Token → Alternatives
  | [.alternation branches] => a.addBranches branches
  | items => a.addAll items

@[simp] theorem addAll_nil (a : Alternatives) : a.addAll [] = a := rfl

theorem addContent_sequence {items : List Token} (h : IsSequence items) (a : Alternatives) :
    a.addContent items = a.addAll items := by
  unfold addContent
  split
  case h_1 branches => exact absurd rfl (h branches)
  case h_2 => rfl

theorem tokens_single (items : List Token) : tokens ⟨[], items⟩ = items.reverse := rfl

theorem tokens_several {branches : List (List Token)} (h : branches ≠ []) (items : List Token) :
    tokens ⟨branches, items⟩ = [.alternation (branches.reverse ++ [items.reverse])] := by
  cases branches with
  | nil => exact absurd rfl h
  | cons branch branches => simp [tokens]

theorem addBranches_cons (a : Alternatives) (branch : List Token) {branches : List (List Token)}
    (h : branches ≠ []) :
    a.addBranches (branch :: branches) = (a.addAll branch).split.addBranches branches := by
  cases branches with
  | nil => exact absurd rfl h
  | cons next branches => rfl

theorem andThen_nil (earlier : Alternatives) (items : List Token) :
    earlier.andThen ⟨[], items⟩ = ⟨earlier.branches, items ++ earlier.items⟩ := rfl

theorem andThen_cons (earlier : Alternatives) (branch : List Token) (branches : List (List Token))
    (items : List Token) :
    earlier.andThen ⟨branch :: branches, items⟩ =
      ⟨(branch :: branches).modifyLast (earlier.items.reverse ++ ·) ++ earlier.branches, items⟩ := rfl

theorem empty_andThen (a : Alternatives) : empty.andThen a = a := by
  rcases a with ⟨branches, items⟩
  rcases List.eq_nil_or_concat branches with rfl | ⟨front, last, rfl⟩
  · simp [andThen_nil, empty]
  · simp [andThen, empty, List.modifyLast_concat]

theorem andThen_add (earlier a : Alternatives) (token : Token) :
    (earlier.andThen a).add token = earlier.andThen (a.add token) := by
  rcases a with ⟨_ | ⟨branch, branches⟩, items⟩ <;> rfl

theorem andThen_split (earlier a : Alternatives) :
    (earlier.andThen a).split = earlier.andThen a.split := by
  rcases a with ⟨_ | ⟨branch, branches⟩, items⟩
  · simp [andThen_nil, split, andThen_cons, List.modifyLast, List.modifyLast.go]
  · have h := List.modifyLast_append_of_right_ne_nil (earlier.items.reverse ++ ·) [items.reverse]
      (branch :: branches) (List.cons_ne_nil _ _)
    simpa [andThen_cons, split] using (congrArg (· ++ earlier.branches) h).symm

/-- A quantifier that finds an item finds the same one behind earlier items. -/
theorem andThen_quantify {a b : Alternatives} {q : Quantifier} (h : a.quantify q = .ok b)
    (earlier : Alternatives) : (earlier.andThen a).quantify q = .ok (earlier.andThen b) := by
  rcases a with ⟨branches, _ | ⟨item, items⟩⟩
  · cases h
  · have hb : ∀ item, earlier.andThen ⟨branches, item :: items⟩ =
        (earlier.andThen ⟨branches, items⟩).add item := fun item =>
      (andThen_add earlier ⟨branches, items⟩ item).symm
    cases item <;> simp only [quantify] at h <;> cases h <;> rw [hb, hb] <;> rfl

theorem precede_eq_andThen (a : Alternatives) (before : List Token) :
    a.precede before = andThen ⟨[], before.reverse⟩ a := by
  rcases a with ⟨_ | ⟨branch, branches⟩, items⟩ <;> simp [precede, andThen]

theorem precede_nil (items before : List Token) :
    precede ⟨[], items⟩ before = ⟨[], items ++ before.reverse⟩ := rfl

theorem precede_add (a : Alternatives) (before : List Token) (token : Token) :
    (a.precede before).add token = (a.add token).precede before := by
  rw [precede_eq_andThen, precede_eq_andThen, andThen_add]

theorem precede_addAll (a : Alternatives) (before tokens : List Token) :
    (a.precede before).addAll tokens = (a.addAll tokens).precede before := by
  rcases a with ⟨_ | ⟨branch, branches⟩, items⟩
  · simp [precede_nil, addAll]
  · rfl

theorem precede_split (a : Alternatives) (before : List Token) :
    (a.precede before).split = a.split.precede before := by
  rw [precede_eq_andThen, precede_eq_andThen, andThen_split]

theorem precede_addBranches (a : Alternatives) (before : List Token)
    (branches : List (List Token)) :
    (a.precede before).addBranches branches = (a.addBranches branches).precede before := by
  induction branches generalizing a with
  | nil => rfl
  | cons branch branches ih =>
    cases branches with
    | nil => exact precede_addAll a before branch
    | cons next branches =>
      have hne : next :: branches ≠ [] := List.cons_ne_nil _ _
      rw [addBranches_cons _ _ hne, addBranches_cons _ _ hne, precede_addAll, precede_split, ih]

theorem precede_addContent (a : Alternatives) (before items : List Token) :
    (a.precede before).addContent items = (a.addContent items).precede before := by
  unfold addContent
  split
  · exact precede_addBranches a before _
  · exact precede_addAll a before _

def IsPlain (a : Alternatives) : Prop := a.branches = [] → IsSequence a.items.reverse

/-- Tokens around what was read are around its tokens. -/
theorem tokens_surround {a : Alternatives} (ha : a.IsPlain) (before after : List Token) :
    ((a.precede before).addAll after).tokens = surround before after a.tokens := by
  rcases a with ⟨branches, items⟩
  rcases List.eq_nil_or_concat branches with rfl | ⟨middle, first, rfl⟩
  · rw [tokens_single, surround_sequence (ha rfl)]
    simp [precede_nil, addAll, tokens]
  · have hm := List.modifyLast_concat (before ++ ·) first middle
    have hs := surround_alternation before after first items.reverse middle.reverse
    have ht : tokens ⟨middle ++ [first], items⟩ =
        [.alternation (first :: middle.reverse ++ [items.reverse])] := by
      rw [tokens_several (by simp)]
      simp
    rw [List.concat_eq_append, ht, hs]
    simp [precede, addAll, hm, tokens]

theorem addBranches_concat (done middle : List (List Token)) (last : List Token) :
    addBranches ⟨done, []⟩ (middle ++ [last]) = ⟨middle.reverse ++ done, last.reverse⟩ := by
  induction middle generalizing done with
  | nil => simp [addBranches, addAll]
  | cons branch middle ih =>
    rw [List.cons_append, addBranches_cons _ _ (by simp)]
    simpa [addAll, split] using ih (branch :: done)

/-- Content that is read from the start on makes itself. -/
theorem addContent_empty {leaf : Token → Prop} (hl : ∀ branches, ¬ leaf (.alternation branches))
    {items : List Token} (h : Content leaf items) :
    (empty.addContent items).IsPlain ∧ (empty.addContent items).tokens = items := by
  cases h with
  | sequence h =>
    have hs : IsSequence items := isSequence_of_items hl h
    rw [addContent_sequence hs]
    have hi : (empty.addAll items).items.reverse = items := by simp [addAll, empty]
    exact ⟨fun _ => hi.symm ▸ hs, hi⟩
  | alternation h _ =>
    obtain ⟨first, middle, last, rfl⟩ := exists_first_last h
    have he : empty.addContent [.alternation (first :: middle ++ [last])] =
        ⟨middle.reverse ++ [first], last.reverse⟩ := by
      have hb := addBranches_concat [] (first :: middle) last
      simpa [addContent, empty] using hb
    rw [he]
    refine ⟨fun hn => absurd hn (by simp), ?_⟩
    rw [tokens_several (by simp)]
    simp

end Alternatives

end RegexTypeset
