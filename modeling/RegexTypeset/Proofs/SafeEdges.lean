import RegexTypeset.Proofs.EdgeCuts
import RegexTypeset.Text.Bytes

/-! # The edges of a text

The edge spaces of a text are all spaces at its edges but one that has to stay: at the
start one that a quantifier applies to, at the end one that is escaped. So no quantifier
and no escape sequence loses a part, and the places of the cuts lie between characters.
-/
namespace RegexTypeset.EdgeSpaces

def IsQuantified (text : List Char) : Prop :=
  (∃ c ∈ ['*', '+', '?'], text.head? = some c) ∨ (Count.scan? text).isSome

/-- A text ends in an odd number of backslashes, no more of them before these. -/
def EndsInOddRun (text : List Char) : Prop :=
  ∃ front k, text = front ++ List.replicate (2 * k + 1) '\\' ∧ front.getLast? ≠ some '\\'

theorem isQuantified_iff {text : List Char} :
    IsQuantified text ↔ startsWithQuantifier text = true := by
  unfold startsWithQuantifier IsQuantified
  split
  case h_4 text star plus question =>
    refine ⟨fun h => h.resolve_left ?_, Or.inr⟩
    rintro ⟨c, hc, hh⟩
    obtain ⟨rest, rfl⟩ := List.head?_eq_some_iff.mp hh
    simp only [List.mem_cons, List.not_mem_nil, or_false] at hc
    rcases hc with rfl | rfl | rfl
    · exact star rest rfl
    · exact plus rest rfl
    · exact question rest rfl
  all_goals simp

/-- Spaces at the end of a text take no part in a quantifier at its start. -/
theorem isQuantified_of_spaces {text : List Char} {k : Nat}
    (h : IsQuantified (text ++ List.replicate k ' ')) : IsQuantified text := by
  cases text with
  | nil => cases k <;> simp [IsQuantified, List.replicate_succ, Count.scan?] at h
  | cons c text =>
    refine h.imp id fun hs => ?_
    by_cases hc : c = '{'
    · subst hc
      refine Option.isSome_iff_ne_none.mpr fun hn => ?_
      rw [List.cons_append, Count.scan?_append_inert (inert_spaces k) hn] at hs
      cases hs
    · simp [Count.scan?, hc] at hs

theorem endsInOddRun_iff {text : List Char} :
    EndsInOddRun text ↔ endsInEscape text.reverse = true := by
  unfold endsInEscape EndsInOddRun
  rw [decide_eq_true_iff]
  constructor
  · rintro ⟨front, k, rfl, hf⟩
    have hr : front.reverse.takeWhile (· = '\\') = [] := by
      cases hs : front.reverse with
      | nil => rfl
      | cons d more =>
        have hd : d ≠ '\\' := by
          rintro rfl
          exact hf (by rw [List.getLast?_eq_head?_reverse, hs]; rfl)
        simp [hd]
    rw [List.reverse_append, List.reverse_replicate,
      List.takeWhile_append_of_pos (by simp), hr, List.append_nil, List.length_replicate]
    omega
  · intro h
    have hs := run_split (p := (· = '\\')) (x := '\\') (by simp) text.reverse
    refine ⟨(text.reverse.dropWhile (· = '\\')).reverse,
      (text.reverse.takeWhile (· = '\\')).length / 2, ?_, fun hl => ?_⟩
    · have hn : 2 * ((text.reverse.takeWhile (· = '\\')).length / 2) + 1 =
          (text.reverse.takeWhile (· = '\\')).length := by omega
      have ht := congrArg List.reverse hs
      rw [List.reverse_reverse, List.reverse_append, List.reverse_replicate] at ht
      rw [hn]
      exact ht
    · have hh := List.head?_dropWhile_not (· = '\\') text.reverse
      rw [List.getLast?_reverse] at hl
      rw [hl] at hh
      cases hh

variable {α : Type} {p : α → Bool} {x : α} {items more : List α}

/-- Where a run is cut off and one of its items is left, that one is held back. -/
theorem held_of_drop (hp : ∀ a, p a = true → a = x) (hx : p x = true) {held : Bool}
    (h : items.drop (if held then (items.takeWhile p).length - 1
      else (items.takeWhile p).length) = x :: more) :
    held = true ∧ items.dropWhile p = more := by
  have hn : items.dropWhile p ≠ x :: more := by
    intro he
    have hh := List.head?_dropWhile_not p items
    rw [he] at hh
    simp [hx] at hh
  cases held with
  | false =>
    rw [if_neg Bool.false_ne_true, drop_run hp (Nat.le_refl _), Nat.sub_self] at h
    exact absurd h hn
  | true =>
    refine ⟨rfl, ?_⟩
    rw [if_pos rfl, drop_run hp (Nat.sub_le _ _)] at h
    generalize (items.takeWhile p).length = run at h
    cases run with
    | zero => exact absurd h hn
    | succ run =>
      have hone : run + 1 - (run + 1 - 1) = 1 := by omega
      rw [hone] at h
      exact (List.cons.inj h).2

theorem drop_leading (text : List Char) : text.drop (ofText text).leading =
    (ofText text).cut text ++ List.replicate (ofText text).trailing ' ' := by
  have hs := congrArg (List.drop (ofText text).leading) (ofText_split text)
  rwa [List.drop_left' List.length_replicate] at hs

theorem isQuantified_of_cut {text rest : List Char} (h : (ofText text).cut text = ' ' :: rest) :
    IsQuantified rest := by
  have hd := drop_leading text
  rw [h, List.cons_append] at hd
  obtain ⟨hq, he⟩ := held_of_drop eq_space rfl hd
  rw [he] at hq
  exact isQuantified_of_spaces (isQuantified_iff.mpr hq)

theorem endsInOddRun_of_cut {text front : List Char}
    (h : (ofText text).cut text = front ++ [' ']) : EndsInOddRun front := by
  have hd := reverse_cut (ofText text) text
  rw [h, List.reverse_append, List.reverse_singleton, List.singleton_append] at hd
  obtain ⟨ho, he⟩ := held_of_drop eq_space rfl hd.symm
  rw [he] at ho
  exact endsInOddRun_iff.mpr ho

theorem not_endsInOddRun_cut {text : List Char} (h : (ofText text).trailing ≠ 0) :
    ¬ EndsInOddRun ((ofText text).cut text) := by
  have hd := (detached_ofText text).resolve_left (by simpa using h)
  rw [endsInOddRun_iff, hd]
  exact Bool.false_ne_true

theorem ofText_spaces (n : Nat) : ofText (List.replicate n ' ') = ⟨n, 0⟩ := by
  simp [ofText, leadingIn, trailingIn, startsWithQuantifier, Count.scan?]

theorem byteLength_spaces (n : Nat) : byteLength (List.replicate n ' ') = n := by
  induction n with
  | zero => rfl
  | succ n ih =>
    have hs : (' ' : Char).utf8Size = 1 := rfl
    rw [List.replicate_succ, byteLength_cons, ih, hs, Nat.add_comm]

theorem utf8ByteSize_spaces (n : Nat) : (String.ofList (List.replicate n ' ')).utf8ByteSize = n := by
  rw [← byteLength_toList, String.toList_ofList, byteLength_spaces]

/-- A text is its leading spaces, a rest, and its trailing spaces, and both cuts lie between
characters. A space at the start of the rest is repeated by what follows, one at its end is escaped;
where spaces are cut off behind the rest, it does not end in half of an escape sequence. -/
theorem ofText_maximal (text : String) :
    let edges := ofText text.toList
    let rest := edges.cut text.toList
    text = String.ofList (List.replicate edges.leading ' ') ++ String.ofList rest ++
      String.ofList (List.replicate edges.trailing ' ') ∧
    edges.leading + edges.trailing ≤ text.utf8ByteSize ∧
    (String.Pos.Raw.mk edges.leading).IsValid text ∧
    (String.Pos.Raw.mk (text.utf8ByteSize - edges.trailing)).IsValid text ∧
    (∀ more, rest = ' ' :: more →
      (∃ c ∈ ['*', '+', '?'], more.head? = some c) ∨ (Count.scan? more).isSome) ∧
    (∀ front, rest = front ++ [' '] → EndsInOddRun front) ∧
    (0 < edges.trailing → ¬ EndsInOddRun rest) ∧
    ∀ n, text.toList = List.replicate n ' ' → edges = ⟨n, 0⟩ := by
  intro edges rest
  let before := String.ofList (List.replicate edges.leading ' ')
  let after := String.ofList (List.replicate edges.trailing ' ')
  have hs : text = before ++ String.ofList rest ++ after := by
    have ht : text.toList = (before ++ String.ofList rest ++ after).toList := by
      simpa [before, after, edges, rest] using ofText_split text.toList
    exact String.toList_inj.mp ht
  have hl : before.utf8ByteSize = edges.leading := utf8ByteSize_spaces _
  have ht : after.utf8ByteSize = edges.trailing := utf8ByteSize_spaces _
  have hb : text.utf8ByteSize =
      edges.leading + (String.ofList rest).utf8ByteSize + edges.trailing := by
    rw [hs, String.utf8ByteSize_append, String.utf8ByteSize_append, hl, ht]
  refine ⟨hs, by omega, ?_, ?_, fun more => isQuantified_of_cut, fun front => endsInOddRun_of_cut,
    fun hn => not_endsInOddRun_cut (Nat.ne_of_gt hn), fun n hn => ?_⟩
  · rw [String.Pos.Raw.isValid_iff_exists_append]
    exact ⟨before, String.ofList rest ++ after, by rw [hs, String.append_assoc],
      String.Pos.Raw.ext hl.symm⟩
  · rw [String.Pos.Raw.isValid_iff_exists_append]
    refine ⟨before ++ String.ofList rest, after, hs, String.Pos.Raw.ext ?_⟩
    show text.utf8ByteSize - edges.trailing = (before ++ String.ofList rest).utf8ByteSize
    rw [String.utf8ByteSize_append, hl]
    omega
  · exact (congrArg ofText hn).trans (ofText_spaces n)

/-- Of two spaces the last one stays before a count, and of three the first one behind a lone
backslash, after a letter of two bytes. -/
theorem ofText_maximal_held :
    let text := "  \x7b2\x7dé\\   "
    let edges := ofText text.toList
    let rest := edges.cut text.toList
    edges = ⟨1, 2⟩ ∧ rest = [' ', '{', '2', '}', 'é', '\\', ' '] ∧
      (String.Pos.Raw.mk 1).IsValid text ∧ (String.Pos.Raw.mk 9).IsValid text ∧
      (Count.scan? ['{', '2', '}', 'é', '\\', ' ']).isSome ∧
      EndsInOddRun [' ', '{', '2', '}', 'é', '\\'] ∧ ¬ EndsInOddRun rest ∧
      ofText "  ".toList = ⟨2, 0⟩ := by
  intro text edges rest
  have he : edges = ⟨1, 2⟩ := by decide
  have hr : rest = [' ', '{', '2', '}', 'é', '\\', ' '] := by decide
  have hf : edges.leading = 1 := congrArg EdgeSpaces.leading he
  have hl : text.utf8ByteSize - edges.trailing = 9 := by decide
  obtain ⟨-, -, hfirst, hlast, hquantified, hescaped, hwhole, -⟩ := ofText_maximal text
  obtain ⟨-, -, -, -, -, -, -, hspaces⟩ := ofText_maximal "  "
  exact ⟨he, hr, hf ▸ hfirst, hl ▸ hlast, (hquantified _ hr).resolve_left (by simp),
    hescaped _ hr, hwhole (by decide), hspaces 2 rfl⟩

end RegexTypeset.EdgeSpaces
