import RegexTypeset.EdgeSpaces
import RegexTypeset.Proofs.LexemeExtent

/-! # Cutting off edges

What is cut off at the edges is spaces, and together with the rest it gives back the
whole. In a text, a space that a quantifier or a backslash holds back is the first or the
last character of the rest.
-/
namespace RegexTypeset.EdgeSpaces

variable {α : Type} {p : α → Bool} {x : α} {items : List α}

theorem run_split (hp : ∀ a, p a = true → a = x) (items : List α) :
    items = List.replicate (items.takeWhile p).length x ++ items.dropWhile p := by
  have hr : items.takeWhile p = List.replicate (items.takeWhile p).length x := by
    apply List.eq_replicate_of_mem
    intro a ha
    exact hp a (List.all_eq_true.mp List.all_takeWhile a ha)
  rw [← hr, List.takeWhile_append_dropWhile]

/-- Behind a part of the run in front stands the rest of the run. -/
theorem drop_run (hp : ∀ a, p a = true → a = x) {k : Nat} (hk : k ≤ (items.takeWhile p).length) :
    items.drop k = List.replicate ((items.takeWhile p).length - k) x ++ items.dropWhile p := by
  have hs := run_split hp items
  have hd := congrArg (List.drop k) hs
  rw [List.drop_append_of_le_length (by simpa using hk), List.drop_replicate] at hd
  exact hd

theorem take_run (hp : ∀ a, p a = true → a = x) {k : Nat} (hk : k ≤ (items.takeWhile p).length) :
    items = List.replicate k x ++ items.drop k := by
  have hr := run_split hp items
  have hn : k + ((items.takeWhile p).length - k) = (items.takeWhile p).length := by omega
  rw [drop_run hp hk, ← List.append_assoc, List.replicate_append_replicate, hn]
  exact hr

/-- Edges that are there, and what is left without them, are the whole. -/
theorem cut_split (hp : ∀ a, p a = true → a = x) (edges : EdgeSpaces) {items : List α}
    (hl : edges.leading ≤ (items.takeWhile p).length)
    (ht : edges.trailing ≤ ((items.drop edges.leading).reverse.takeWhile p).length) :
    items = List.replicate edges.leading x ++
      (edges.cut items ++ List.replicate edges.trailing x) := by
  have hr := take_run hp ht
  rw [List.drop_reverse] at hr
  have hc : (items.drop edges.leading) = edges.cut items ++ List.replicate edges.trailing x := by
    have hr' := congrArg List.reverse hr
    rw [List.reverse_reverse, List.reverse_append, List.reverse_reverse, List.reverse_replicate] at hr'
    exact hr'
  rw [← hc]
  exact take_run hp hl

theorem reverse_cut (edges : EdgeSpaces) (items : List α) :
    (edges.cut items).reverse = (items.drop edges.leading).reverse.drop edges.trailing := by
  rw [List.drop_reverse]
  rfl

theorem length_takeWhile_append (p : α → Bool) (front behind : List α) :
    (front.takeWhile p).length ≤ ((front ++ behind).takeWhile p).length := by
  rw [List.takeWhile_append]
  split
  case isTrue h =>
    rw [List.length_append, h]
    omega
  case isFalse => exact Nat.le_refl _

/-- The run at the end of a list is no longer when something is cut off in front. -/
theorem length_takeWhile_drop (p : α → Bool) (items : List α) (k : Nat) :
    ((items.drop k).reverse.takeWhile p).length ≤ (items.reverse.takeWhile p).length := by
  have hr : items.reverse = (items.drop k).reverse ++ (items.take k).reverse := by
    rw [← List.reverse_append, List.take_append_drop]
  rw [hr]
  exact length_takeWhile_append p _ _

theorem eq_space (c : Char) (h : decide (c = ' ') = true) : c = ' ' := by
  simpa using h

theorem eq_literal_space (token : Token) (h : token.isSpace = true) : token = .literal ' ' := by
  unfold Token.isSpace at h
  split at h
  · rfl
  · cases h

theorem leadingIn_le (text : List Char) :
    leadingIn text ≤ (text.takeWhile (· = ' ')).length := by
  simp only [leadingIn]
  split <;> omega

theorem trailingIn_le (text : List Char) :
    trailingIn text ≤ (text.reverse.takeWhile (· = ' ')).length := by
  simp only [trailingIn]
  split <;> omega

theorem ofText_split (text : List Char) :
    text = List.replicate (ofText text).leading ' ' ++
      ((ofText text).cut text ++ List.replicate (ofText text).trailing ' ') :=
  cut_split eq_space (ofText text) (leadingIn_le text) (trailingIn_le _)

/-- The trailing spaces belong to no escape sequence of the rest. -/
theorem detached_ofText (text : List Char) :
    Detached ((ofText text).cut text) (List.replicate (ofText text).trailing ' ') := by
  have hr := reverse_cut (ofText text) text
  have hd := drop_run eq_space (trailingIn_le (text.drop (ofText text).leading))
  have ht : (ofText text).trailing = trailingIn (text.drop (ofText text).leading) := rfl
  rw [ht, hd] at hr
  unfold Detached
  rw [ht, hr]
  generalize text.drop (ofText text).leading = rest
  simp only [trailingIn]
  split
  case isFalse he =>
    right
    simpa using he
  case isTrue he =>
    generalize (rest.reverse.takeWhile (· = ' ')).length = run
    cases run with
    | zero => left; rfl
    | succ run =>
      right
      have hone : run + 1 - (run + 1 - 1) = 1 := by omega
      rw [hone]
      rfl

/-- The rest does not start with a quantifier if spaces were cut off before it. -/
theorem not_startsWithQuantifier_ofText {text : List Char} (h : (ofText text).leading ≠ 0) :
    startsWithQuantifier (text.drop (ofText text).leading) = false := by
  have hl : (ofText text).leading = leadingIn text := rfl
  have hd := drop_run eq_space (leadingIn_le text)
  rw [hl] at h ⊢
  rw [hd]
  simp only [leadingIn] at h ⊢
  split
  case isFalse hq =>
    simpa using hq
  case isTrue hq =>
    rw [if_pos hq] at h
    generalize (text.takeWhile (· = ' ')).length = run at h
    have hone : run - (run - 1) = 1 := by omega
    rw [hone]
    rfl

end RegexTypeset.EdgeSpaces
