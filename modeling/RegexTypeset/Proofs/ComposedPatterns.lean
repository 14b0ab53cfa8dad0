import RegexTypeset.Proofs.GroupedReading
import RegexTypeset.Proofs.TreeEquality

/-! # Patterns put together

Two patterns that are not verbose may be put together by a bar, or by parentheses around
the first one. The trees are then put together in the same way, and the flags of both are
found: no lexeme of one pattern reaches into the other. A group may only be too deep.
-/
namespace RegexTypeset

def branchesOf : List Token → List (List Token)
  | [.alternation branches] => branches
  | items => [items]

namespace Alternatives

theorem branchesOf_tokens {a : Alternatives} (h : a.IsPlain) :
    branchesOf a.tokens = a.branches.reverse ++ [a.items.reverse] := by
  rcases a with ⟨_ | ⟨branch, branches⟩, items⟩
  · have hs : IsSequence items.reverse := h rfl
    rw [tokens_single]
    unfold branchesOf
    split
    case h_1 branches he => exact absurd he (hs branches)
    case h_2 => rfl
  · rw [tokens_several (List.cons_ne_nil _ _)]
    rfl

/-- What is read before a bar and after it makes one alternation. -/
theorem tokens_split_andThen {a b : Alternatives} (ha : a.IsPlain) (hb : b.IsPlain) :
    (a.split.andThen b).tokens = [.alternation (branchesOf a.tokens ++ branchesOf b.tokens)] := by
  rw [branchesOf_tokens ha, branchesOf_tokens hb]
  rcases b with ⟨branches, items⟩
  rcases List.eq_nil_or_concat branches with rfl | ⟨front, last, rfl⟩
  · simp [andThen_nil, split, tokens]
  · simp [andThen, split, tokens, List.modifyLast_concat]

end Alternatives

/-- A header of a group that captures or not, in front of its content. -/
inductive IsPlainHeader : List Char → List Char → Prop where
  | none {content : List Char} : content.head? ≠ some '?' → IsPlainHeader [] content
  | uncaptured {content : List Char} : IsPlainHeader ['?', ':'] content
  | named {name content : List Char} : GroupName.isIdentifier name = true →
      IsPlainHeader ('?' :: 'P' :: '<' :: (name ++ ['>'])) content

theorem IsPlainHeader.opens {header content : List Char} (h : IsPlainHeader header content) :
    Nesting.Opens header content false .plain := by
  intro behind
  cases h with
  | none hc =>
    refine GroupHeader.read_plain ?_
    cases content with
    | nil => simp [Nesting.groupEnd]
    | cons c content => exact hc
  | uncaptured => rfl
  | @named name _ hn =>
    have hv : GroupName.isValid '>' name = true := by simp [GroupName.isValid, hn]
    have hs : '>' ∉ name := GroupName.not_mem_of_isValid (by decide +kernel) (by decide) hv
    have hr : GroupHeader.named '>' (fun _ => .opening .plain)
        (name ++ '>' :: (content ++ (Nesting.groupEnd false ++ behind))) =
        .ok (.opening .plain, content ++ (Nesting.groupEnd false ++ behind)) :=
      GroupHeader.named_eq_ok.mpr ⟨name, rfl, hs, hv, rfl⟩
    simpa [GroupHeader.read, GroupHeader.extension] using hr

namespace Pattern

variable {p q : List Char} {flags found found' : Flags} {tokens tokens' : List Token}

/-- A pattern that is not verbose takes one reading, which is never verbose at its end. -/
theorem exists_whole_of_read (h : read p flags = .ok (tokens, found)) (hv : found.has .verbose = false) :
    ∃ m, Nesting.Whole (.start flags) p m ∧ m.current.tokens = tokens ∧ m.global = found ∧
      m.isVerbose = false ∧ flags.has .verbose = false := by
  have ho := readOnce_of_read h fun ht => absurd (hv.symm.trans ht) (by decide)
  obtain ⟨m, hm, ht, rfl⟩ := readOnce_eq_ok_iff_whole.mp ho
  exact ⟨m, hm, ht, rfl, hm.not_verbose hv⟩

/-- Two patterns with a bar between them have the branches of both. -/
theorem read_bar (hp : read p flags = .ok (tokens, found)) (hq : read q flags = .ok (tokens', found'))
    (hv : found.has .verbose = false) (hv' : found'.has .verbose = false) :
    read (p ++ '|' :: q) flags =
      .ok ([.alternation (branchesOf tokens ++ branchesOf tokens')], found ∪ found') := by
  obtain ⟨m, hm, rfl, rfl, hmv, hf⟩ := exists_whole_of_read hp hv
  obtain ⟨n, hn, rfl, rfl, -, -⟩ := exists_whole_of_read hq hv'
  let bar : Nesting := ⟨m.scope, m.global, m.current.split, []⟩
  have hbar : ∀ d ∈ ('|' :: q).head?, Inert d := by simp [Inert]
  -- the bar ends every lexeme of the first pattern, and starts the second one afresh
  have before : (Nesting.start flags).read (p ++ '|' :: q) = bar.read q := by
    rw [hm.read_first rfl hmv hbar, Nesting.read_bar]
    show Nesting.read ⟨m.scope, m.global, (Alternatives.empty.andThen m.current).split, []⟩ q = _
    rw [Alternatives.empty_andThen]
  have hbv : bar.isVerbose = (Nesting.start flags).isVerbose := hmv.trans hf.symm
  obtain ⟨n', hn', halike⟩ := hn.transfer hbv
  have hglobal : n'.global = m.global ∪ n.global := halike.global_eq hm.global_union
  have htokens : (m.current.split.andThen n'.current).tokens =
      [.alternation (branchesOf m.current.tokens ++ branchesOf n.current.tokens)] := by
    rw [halike.current]
    exact Alternatives.tokens_split_andThen hm.isPlain hn.isPlain
  have ho := readOnce_eq_ok.mpr ⟨_, before.trans (hn'.read_last rfl), rfl, htokens, hglobal⟩
  exact read_of_readOnce ho fun ht => by simp [hv, hv'] at ht

/-- A group of one pattern joins the first branch of the other one, if it is not too deep. -/
theorem read_group (hp : read p flags = .ok (tokens, found)) (hq : read q flags = .ok (tokens', found'))
    (hv : found.has .verbose = false) (hv' : found'.has .verbose = false) {header : List Char}
    (hh : IsPlainHeader header p) :
    (∃ place, read ('(' :: (header ++ (p ++ ')' :: q))) flags = .error ⟨.tooDeep, place⟩) ∨
      read ('(' :: (header ++ (p ++ ')' :: q))) flags =
        .ok (surround [.group tokens] [] tokens', found ∪ found') := by
  obtain ⟨m, hm, rfl, rfl, hmv, hf⟩ := exists_whole_of_read hp hv
  obtain ⟨n, hn, rfl, rfl, -, -⟩ := exists_whole_of_read hq hv'
  have hends : Nesting.groupEnd m.isVerbose ++ q = ')' :: q := by
    rw [hmv]
    rfl
  have hinside : Nesting.Whole (.inside .plain flags) p m := ⟨hm.reads, hm.closed⟩
  have hopens : Nesting.Opens header p m.isVerbose .plain := hmv ▸ hh.opens
  rw [← hends]
  by_cases hr : Nesting.HasRoom 1 (.inside .plain flags) p
  · right
    have ho := hinside.readOnce_group hr hopens hn (hmv.trans hf.symm)
    exact read_of_readOnce ho fun ht => by simp [hv, hv'] at ht
  · left
    obtain ⟨place, he⟩ := hinside.read_group_tooDeep hr hopens q
    exact ⟨place, read_error he⟩

/-- Patterns that are not verbose are read together as they are read alone. -/
theorem read_composed (hp : read p flags = .ok (tokens, found))
    (hq : read q flags = .ok (tokens', found')) (hv : found.has .verbose = false)
    (hv' : found'.has .verbose = false) :
    read (p ++ '|' :: q) flags =
        .ok ([.alternation (branchesOf tokens ++ branchesOf tokens')], found ∪ found') ∧
      ∀ header, IsPlainHeader header p →
        (∃ place, read ('(' :: (header ++ (p ++ ')' :: q))) flags = .error ⟨.tooDeep, place⟩) ∨
          read ('(' :: (header ++ (p ++ ')' :: q))) flags =
            .ok (surround [.group tokens] [] tokens', found ∪ found') :=
  ⟨read_bar hp hq hv hv', fun _ hh => read_group hp hq hv hv' hh⟩

section

open scoped TreeEquality

theorem read_composed_named :
    read "(?i)a|\x7b2".toList .dotAll =
      .ok ([.alternation [[.literal 'a'], [.literal '{', .literal '2']]], .dotAll ∪ .ignoreCase) ∧
    read "\x7d(?m)|\\1".toList .dotAll =
      .ok ([.alternation [[.literal '}'], [.unrendered (.backreference "1")]]], .dotAll ∪ .multiline) ∧
    read "(?i)a|\x7b2|\x7d(?m)|\\1".toList .dotAll =
      .ok ([.alternation [[.literal 'a'], [.literal '{', .literal '2'], [.literal '}'],
        [.unrendered (.backreference "1")]]], (.dotAll ∪ .ignoreCase) ∪ (.dotAll ∪ .multiline)) ∧
    read "(?P<n>(?i)a|\x7b2)\x7d(?m)|\\1".toList .dotAll =
      .ok ([.alternation [[.group [.alternation [[.literal 'a'], [.literal '{', .literal '2']]],
        .literal '}'], [.unrendered (.backreference "1")]]],
        (.dotAll ∪ .ignoreCase) ∪ (.dotAll ∪ .multiline)) := by
  have hp : read "(?i)a|\x7b2".toList .dotAll =
      .ok ([.alternation [[.literal 'a'], [.literal '{', .literal '2']]], .dotAll ∪ .ignoreCase) := by
    decide +kernel
  have hq : read "\x7d(?m)|\\1".toList .dotAll =
      .ok ([.alternation [[.literal '}'], [.unrendered (.backreference "1")]]],
        .dotAll ∪ .multiline) := by
    decide +kernel
  have hn : GroupName.isIdentifier ['n'] = true := by decide +kernel
  obtain ⟨hbar, hgroup⟩ := read_composed hp hq (by decide) (by decide)
  have shallow : (read "(?P<n>(?i)a|\x7b2)\x7d(?m)|\\1".toList .dotAll).toBool = true := by decide +kernel
  refine ⟨hp, hq, hbar, (hgroup _ (.named hn)).resolve_left ?_⟩
  rintro ⟨place, he⟩
  cases shallow.symm.trans (congrArg Except.toBool he)

end

end Pattern

end RegexTypeset
