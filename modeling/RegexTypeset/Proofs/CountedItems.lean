import Mathlib.Data.List.Induction
import Mathlib.Data.Nat.Digits.Defs
import RegexTypeset.Proofs.GroupedReading
import RegexTypeset.Proofs.WrittenTrees

/-! # Counts behind an item

A count is read as it is written, however long its numbers are. Behind a character it is
the repetition with the decimal values of its numbers as bounds, unless a value does not
fit a word or the values are in the wrong order. A brace that starts no count stands for
itself.
-/
namespace RegexTypeset

namespace Count

variable {count : Count} {digits : List Char}

def decimal (digits : List Char) : Nat :=
  Nat.ofDigits 10 (digits.reverse.map fun d => d.toNat - '0'.toNat)

theorem value_eq_decimal (digits : List Char) : value digits = decimal digits := by
  induction digits using List.reverseRecOn with
  | nil => rfl
  | append_singleton digits d ih =>
    have hv : value (digits ++ [d]) = 10 * value digits + (d.toNat - '0'.toNat) := by
      simp [value, List.foldl_append]
    rw [hv, ih, decimal, decimal, List.reverse_append, List.reverse_singleton,
      List.singleton_append, List.map_cons, Nat.ofDigits_cons]
    exact Nat.add_comm _ _

def least (count : Count) : Nat := decimal count.low

def greatest? (count : Count) : Option Nat :=
  match count.high with
  | none => some count.least
  | some [] => none
  | some digits => some (decimal digits)

def HasBounds (count : Count) : Prop :=
  count.least < 2 ^ 32 ∧ ∀ most ∈ count.greatest?, most < 2 ^ 32 ∧ count.least ≤ most

theorem exists_word (h : decimal digits < 2 ^ 32) :
    ∃ w, word? digits = some w ∧ w.toNat = decimal digits := by
  have hv : value digits < UInt32.size := value_eq_decimal digits ▸ h
  have hw : (UInt32.ofNat (value digits)).toNat = value digits := UInt32.toNat_ofNat_of_lt hv
  exact ⟨_, by simp only [word?, if_pos hv], hw.trans (value_eq_decimal digits)⟩

theorem word?_eq_none (h : ¬ decimal digits < 2 ^ 32) : word? digits = none := by
  have hv : ¬ value digits < UInt32.size := value_eq_decimal digits ▸ h
  simp only [word?, if_neg hv]

theorem exists_bounds (h : count.HasBounds) :
    ∃ min max, count.bounds? = some (min, max) ∧ min.toNat = count.least ∧
      max.map UInt32.toNat = count.greatest? := by
  obtain ⟨hl, hg⟩ := h
  obtain ⟨min, hmin, hml⟩ := exists_word hl
  rcases count with ⟨low, _ | _ | ⟨d, digits⟩⟩
  · exact ⟨min, some min, by simp [bounds?, hmin], hml, congrArg some hml⟩
  · exact ⟨min, none, by simp [bounds?, hmin], hml, rfl⟩
  · obtain ⟨hm, hle⟩ := hg _ rfl
    obtain ⟨max, hmax, hmg⟩ := exists_word hm
    have ho : ¬ max < min := by
      rw [UInt32.lt_iff_toNat_lt, hmg, hml]
      exact Nat.not_lt.mpr hle
    exact ⟨min, some max, by simp [bounds?, hmin, hmax, ho], hml, congrArg some hmg⟩

theorem bounds?_eq_none (h : ¬ count.HasBounds) : count.bounds? = none := by
  by_cases hl : count.least < 2 ^ 32
  · obtain ⟨min, hmin, hml⟩ := exists_word hl
    rcases count with ⟨low, _ | _ | ⟨d, digits⟩⟩
    · exact absurd ⟨hl, fun most hm => Option.some.inj hm ▸ ⟨hl, Nat.le_refl _⟩⟩ h
    · exact absurd ⟨hl, fun most hm => nomatch hm⟩ h
    · by_cases hg : decimal (d :: digits) < 2 ^ 32
      · obtain ⟨max, hmax, hmg⟩ := exists_word hg
        have ho : max < min := by
          rw [UInt32.lt_iff_toNat_lt, hmg, hml]
          refine Nat.lt_of_not_le fun hle => h ⟨hl, fun most hm => ?_⟩
          exact Option.some.inj hm ▸ ⟨hg, hle⟩
        simp [bounds?, hmin, hmax, ho]
      · simp [bounds?, hmin, word?_eq_none hg]
  · simp [bounds?, word?_eq_none hl]

/-- No count is found where none is written. -/
theorem scan?_eq_none_iff {text : List Char} :
    scan? text = none ↔ ∀ count : Count, count.IsProper → ¬ count.written <+: text := by
  rw [Option.eq_none_iff_forall_ne_some]
  constructor
  · intro h count hp hw
    exact h (byteLength count.written, count) (scan?_eq_some_iff.mpr ⟨hp, rfl, hw⟩)
  · rintro h ⟨n, count⟩ hs
    obtain ⟨hp, -, hw⟩ := scan?_eq_some_iff.mp hs
    exact h count hp hw

end Count

namespace Lexeme

def lazyMark (isLazy : Bool) : List Char := if isLazy then ['?'] else []

theorem quantified_lazyMark (min : UInt32) (max : Option UInt32) (isLazy : Bool) :
    quantified min max (lazyMark isLazy) = (.quantifier ⟨min, max, isLazy⟩, []) := by
  cases isLazy <;> rfl

/-- A brace is no blank and starts no comment. -/
theorem read_brace (verbose : Bool) (rest : List Char) : read verbose '{' rest = brace rest := by
  cases verbose <;> rfl

theorem brace_of_not_count {rest : List Char}
    (h : ∀ count : Count, count.IsProper → ¬ count.written <+: '{' :: rest) :
    brace rest = .ok (.item (.literal '{'), rest) := by
  simp only [brace, Count.scan?_eq_none_iff.mpr h]

end Lexeme

namespace Nesting

variable {n : Nesting} {c : Char}

theorem read_fault {rest : List Char} {fault : Fault} (hc : c ≠ '(')
    (h : Lexeme.read n.isVerbose c rest = .error fault) : n.read (c :: rest) = .error fault := by
  rw [read_cons, if_neg fun hd => hc hd.1, h]

/-- A character without a meaning of its own is an item. -/
theorem read_literal (hc : c ∉ metacharacters) (hv : n.isVerbose = false) (rest : List Char) :
    n.read (c :: rest) = (n.addAll [.literal c]).read rest := by
  have hl : Lexeme.read n.isVerbose c rest = .ok (.item (.literal c), rest) := by
    rw [hv]
    exact Lexeme.solid_literal hc rest
  exact read_lexeme _ (fun he => absurd (he ▸ by decide) hc) hl rfl

end Nesting

namespace Pattern

variable {c : Char} {count : Count} {flags : Flags}

def counted (c : Char) (count : Count) (isLazy : Bool) : List Char :=
  c :: (count.written ++ Lexeme.lazyMark isLazy)

theorem read_counted (hc : c ∉ metacharacters) (hp : count.IsProper)
    (hv : flags.has .verbose = false) {min : UInt32} {max : Option UInt32}
    (hb : count.bounds? = some (min, max)) (isLazy : Bool) :
    read (counted c count isLazy) flags =
      .ok ([.repeated ⟨min, max, isLazy⟩ (.literal c)], flags) := by
  let n := Nesting.start flags
  have hn : n.isVerbose = false := hv
  have hl : Lexeme.read (n.addAll [.literal c]).isVerbose '{'
      (count.inner ++ '}' :: Lexeme.lazyMark isLazy) = .ok (.quantifier ⟨min, max, isLazy⟩, []) := by
    simp only [Lexeme.read_brace, Lexeme.brace_written hp, hb, Lexeme.quantified_lazyMark]
  have hr : n.read (counted c count isLazy) =
      .ok (n.addAll [.repeated ⟨min, max, isLazy⟩ (.literal c)]) := calc
    n.read (counted c count isLazy)
      = (n.addAll [.literal c]).read (count.written ++ Lexeme.lazyMark isLazy) :=
        Nesting.read_literal hc hn _
    _ = (n.addAll [.literal c]).read ('{' :: (count.inner ++ '}' :: Lexeme.lazyMark isLazy)) := by
        rw [Count.written_append]
    _ = (n.addAll [.repeated ⟨min, max, isLazy⟩ (.literal c)]).read [] :=
        Nesting.read_quantifier rfl (by decide) hl
    _ = .ok (n.addAll [.repeated ⟨min, max, isLazy⟩ (.literal c)]) := Nesting.read_nil _
  refine read_of_readOnce ?_ id
  exact readOnce_eq_ok.mpr ⟨_, hr, rfl, rfl, rfl⟩

theorem read_counted_error (hc : c ∉ metacharacters) (hp : count.IsProper)
    (hv : flags.has .verbose = false) (hb : count.bounds? = none) (isLazy : Bool) :
    read (counted c count isLazy) flags =
      .error ⟨.repeatBounds, count.written ++ Lexeme.lazyMark isLazy⟩ := by
  let n := Nesting.start flags
  have hn : n.isVerbose = false := hv
  have hl : Lexeme.read (n.addAll [.literal c]).isVerbose '{'
      (count.inner ++ '}' :: Lexeme.lazyMark isLazy) =
        .error ⟨.repeatBounds, count.written ++ Lexeme.lazyMark isLazy⟩ := by
    simp only [Lexeme.read_brace, Lexeme.brace_written hp, hb]
  have hf := Nesting.read_fault (by decide) hl
  rw [← Count.written_append] at hf
  exact read_error ((Nesting.read_literal hc hn _).trans hf)

theorem compile_counted_ok (hc : c ∉ metacharacters) (hp : count.IsProper)
    (hv : flags.has .verbose = false) (hb : count.HasBounds) (isLazy : Bool) :
    ∃ q : Quantifier, q.min.toNat = count.least ∧ q.max.map UInt32.toNat = count.greatest? ∧
      q.isLazy = isLazy ∧ compile (String.ofList (counted c count isLazy)) flags =
        .ok ⟨String.ofList (counted c count isLazy), flags, [.repeated q (.literal c)]⟩ := by
  obtain ⟨min, max, hm, hl, hg⟩ := Count.exists_bounds hb
  refine ⟨⟨min, max, isLazy⟩, hl, hg, rfl, ?_⟩
  simp only [compile, String.toList_ofList, read_counted hc hp hv hm isLazy]

theorem compile_counted_error (hc : c ∉ metacharacters) (hp : count.IsProper)
    (hv : flags.has .verbose = false) (hb : ¬ count.HasBounds) (isLazy : Bool) :
    compile (String.ofList (counted c count isLazy)) flags =
      .error ⟨.repeatBounds, c.utf8Size⟩ := by
  have hr := read_counted_error hc hp hv (Count.bounds?_eq_none hb) isLazy
  have ho : byteLength (counted c count isLazy) -
      byteLength (count.written ++ Lexeme.lazyMark isLazy) = c.utf8Size := by
    rw [counted, byteLength_cons, Nat.add_sub_cancel]
  simp only [compile, String.toList_ofList, hr, Fault.locate, ho]

/-- A count is found exactly where one is written, with its length in bytes, of which each character
takes one. Behind a character without a meaning of its own it is a repetition with the values of its
numbers as bounds; where these do not fit, the error is at its brace. Another brace is a literal. -/
theorem compile_counted :
    (∀ text n count, Count.scan? text = some (n, count) ↔
      count.IsProper ∧ n = byteLength count.written ∧ count.written <+: text) ∧
    (∀ count : Count, count.IsProper →
      (∀ c ∈ count.written, c.val < 128) ∧ byteLength count.written = count.written.length) ∧
    (∀ (c : Char) (count : Count) (isLazy : Bool) (flags : Flags),
      c ∉ metacharacters → count.IsProper → flags.has .verbose = false →
      let text := String.ofList (c :: (count.written ++ if isLazy then ['?'] else []))
      (count.HasBounds → ∃ q : Quantifier, q.min.toNat = count.least ∧
        q.max.map UInt32.toNat = count.greatest? ∧ q.isLazy = isLazy ∧
        compile text flags = .ok ⟨text, flags, [.repeated q (.literal c)]⟩) ∧
      (¬ count.HasBounds → compile text flags = .error ⟨.repeatBounds, c.utf8Size⟩)) ∧
    ∀ (n : Nesting) (rest : List Char),
      (∀ count : Count, count.IsProper → ¬ count.written <+: '{' :: rest) →
      n.read ('{' :: rest) = (n.add (.literal '{')).read rest := by
  refine ⟨fun text n count => Count.scan?_eq_some_iff, fun count hp => ?_,
    fun c count isLazy flags hc hp hv => ?_, fun n rest hn => ?_⟩
  · exact ⟨hp.isAscii, byteLength_of_isAscii hp.isAscii⟩
  · exact ⟨fun hb => compile_counted_ok hc hp hv hb isLazy,
      fun hb => compile_counted_error hc hp hv hb isLazy⟩
  · have hl : Lexeme.read n.isVerbose '{' rest = .ok (.item (.literal '{'), rest) :=
      (Lexeme.read_brace n.isVerbose rest).trans (Lexeme.brace_of_not_count hn)
    exact Nesting.read_lexeme (.item (.literal '{')) (fun he => absurd he (by decide)) hl rfl

/-- Zeros in front of a number do not count, and an upper number may be missing. A value of
thirty-three bits is refused, here behind a letter of two bytes. -/
theorem compile_counted_letters :
    Count.scan? "\x7b03,\x7db".toList = some (5, ⟨['0', '3'], some []⟩) ∧
    (Count.mk ['0', '3'] (some [])).written.length = 5 ∧
    (∃ q : Quantifier, q.min.toNat = 3 ∧ q.max.map UInt32.toNat = none ∧ q.isLazy = true ∧
      compile "é\x7b03,\x7d?" ∅ = .ok ⟨"é\x7b03,\x7d?", ∅, [.repeated q (.literal 'é')]⟩) ∧
    compile "é\x7b,4294967296\x7d" ∅ = .error ⟨.repeatBounds, 2⟩ ∧
    (Nesting.start ∅).read "\x7b,x".toList =
      ((Nesting.start ∅).add (.literal '{')).read ",x".toList := by
  obtain ⟨hscan, hbytes, hread, hother⟩ := compile_counted
  have hp : (Count.mk ['0', '3'] (some [])).IsProper :=
    ⟨List.all_eq_true.mp (by decide), by simp, fun h => nomatch h⟩
  have hw : (Count.mk [] (some "4294967296".toList)).IsProper := by
    refine ⟨by simp, ?_, fun h => nomatch h⟩
    rintro _ ⟨rfl⟩
    exact List.all_eq_true.mp (by decide)
  have hc : 'é' ∉ metacharacters := by decide
  refine ⟨(hscan _ _ _).mpr ⟨hp, rfl, ['b'], rfl⟩, (hbytes _ hp).2.symm, ?_, ?_, ?_⟩
  · refine (hread 'é' _ true ∅ hc hp rfl).1 ⟨by decide, fun _ hm => nomatch hm⟩
  · refine (hread 'é' _ false ∅ hc hw rfl).2 fun hb => ?_
    exact absurd (hb.2 _ rfl).1 (by decide)
  · exact hother _ _ (Count.scan?_eq_none_iff.mp rfl)

end Pattern

end RegexTypeset
