import RegexTypeset.Proofs.CursorDiscipline
import RegexTypeset.Proofs.ReaderExtent

/-! # Lexemes by descent

A character class, an escape sequence, a count and the parts of a group header are read by
descent as they are read as lexemes: with the same result and the same text behind it, or with
the same fault. The cursor alone moves.
-/
namespace RegexTypeset.Descent

variable {σ α β : Type} {s : Cursor} {p : Descent α} {f : α → Descent β} {a : α} {fault : Fault}
  {rest text opened : List Char}

/-- The reader has the outcome of a reader of characters, and moves the cursor only. -/
def Mirrors (p : Descent α) (s : Cursor) (read : Except Fault (α × List Char)) : Prop :=
  ∃ result rest, p s = some (result, { s with rest := rest }) ∧ read = result.map fun a => (a, rest)

theorem mirrors_ok :
    Mirrors p s (.ok (a, rest)) ↔ p s = some (.ok a, { s with rest := rest }) := by
  constructor
  · rintro ⟨result, last, hp, hr⟩
    cases result with
    | error fault => cases hr
    | ok b => cases hr; exact hp
  · exact fun h => ⟨_, _, h, rfl⟩

theorem mirrors_pure (a : α) (s : Cursor) : Mirrors (pure a) s (.ok (a, s.rest)) :=
  mirrors_ok.mpr rfl

theorem mirrors_throw (fault : Fault) (s : Cursor) :
    Mirrors (throw fault : Descent α) s (.error fault) :=
  ⟨.error fault, s.rest, rfl, rfl⟩

theorem Mirrors.ok_bind {read : Except Fault (β × List Char)} (h : Mirrors p s (.ok (a, rest)))
    (hf : Mirrors (f a) { s with rest := rest } read) : Mirrors (p >>= f) s read := by
  obtain ⟨result, last, hl, hr⟩ := hf
  exact ⟨result, last, (bind_ok (mirrors_ok.mp h)).trans hl, hr⟩

theorem Mirrors.place_bind {f : List Char → Descent β} {read : Except Fault (β × List Char)}
    (hf : Mirrors (f s.rest) s read) : Mirrors (place >>= f) s read := hf

theorem Mirrors.peek_bind {f : Option Char → Descent β} {read : Except Fault (β × List Char)}
    (hf : Mirrors (f s.rest.head?) s read) : Mirrors (peek >>= f) s read := hf

theorem Mirrors.error_bind (h : Mirrors p s (.error fault)) :
    Mirrors (p >>= f) s (.error fault) := by
  obtain ⟨result, rest, hp, hr⟩ := h
  cases result with
  | ok a => cases hr
  | error fault' => cases hr; exact ⟨.error fault, rest, bind_error hp, rfl⟩

theorem Mirrors.map {read : Except Fault (α × List Char)} (h : Mirrors p s read) (g : α → β) :
    Mirrors (p >>= fun a => pure (g a)) s (read.map fun (a, rest) => (g a, rest)) := by
  cases read with
  | error fault => exact h.error_bind
  | ok out => exact h.ok_bind (mirrors_pure _ _)

theorem mirrors_bump (c : Char) (hs : s.rest = c :: rest) :
    Mirrors bump s (.ok (some c, rest)) := by
  rw [mirrors_ok, bump, hs]
  rfl

theorem mirrors_bump_nil (hs : s.rest = []) : Mirrors bump s (.ok (none, [])) := by
  rw [mirrors_ok, bump, hs]
  rfl

theorem mirrors_eat (c : Char) (hs : s.rest = c :: rest) : Mirrors (eat c) s (.ok (true, rest)) :=
  mirrors_ok.mpr (eat_of_cons hs)

theorem mirrors_eat_of_ne {c : Char} (hs : s.rest.head? ≠ some c) :
    Mirrors (eat c) s (.ok (false, s.rest)) :=
  mirrors_ok.mpr (eat_of_ne hs)

theorem mirrors_takeUpTo (kind : Char → Bool) (n : Nat) (s : Cursor) :
    Mirrors (takeUpTo kind n) s
      (.ok ((s.rest.take n).takeWhile kind,
        s.rest.drop ((s.rest.take n).takeWhile kind).length)) := by
  induction n generalizing s with
  | zero => exact mirrors_pure _ _
  | succ n ih =>
    cases hr : s.rest with
    | nil =>
      have none_left : eatIf kind s = some (.ok none, s) := eatIf_of_not (by simp [hr])
      rw [mirrors_ok, takeUpTo, bind_ok none_left]
      exact congrArg (fun rest => some (Except.ok [], { s with rest := rest })) hr
    | cons c rest =>
      cases hk : kind c with
      | false =>
        have left : eatIf kind s = some (.ok none, s) := eatIf_of_not (by simp [hr, hk])
        rw [mirrors_ok, takeUpTo, bind_ok left]
        simp only [List.take_succ_cons, List.takeWhile_cons, hk, Bool.false_eq_true, if_false,
          List.length_nil, List.drop_zero]
        exact congrArg (fun rest => some (Except.ok [], { s with rest := rest })) hr
      | true =>
        have taken : Mirrors (eatIf kind) s (.ok (some c, rest)) :=
          mirrors_ok.mpr (eatIf_of_cons hr hk)
        simp only [List.take_succ_cons, List.takeWhile_cons, hk, if_true, List.length_cons,
          List.drop_succ_cons]
        exact taken.ok_bind ((ih { s with rest := rest }).map (c :: ·))

/-- What a round of characters is to a reader of all of them: a start of a shorter text, or the end
with a result that is changed, or a fault. -/
def IsRoundOf (g : α → β) (read : σ → List Char → Except Fault (β × List Char)) (x : σ)
    (text : List Char) : Except Fault ((σ ⊕ α) × List Char) → Prop
  | .ok (.inl y, rest) => rest.length < text.length ∧ read x text = read y rest
  | .ok (.inr a, rest) => read x text = .ok (g a, rest)
  | .error fault => read x text = .error fault

section Loop

variable {g : α → β} {round : σ → Descent (σ ⊕ α)}
  {read : σ → List Char → Except Fault (β × List Char)}

theorem exists_rounds_eq
    (h : ∀ x s, ∃ step, Mirrors (round x) s step ∧ IsRoundOf g read x s.rest step)
    (x : σ) (s : Cursor) {count : Nat} (hc : s.rest.length < count) :
    ∃ result rest, rounds round count x s = some (result, { s with rest := rest }) ∧
      read x s.rest = result.map fun a => (g a, rest) := by
  induction count generalizing s x with
  | zero => exact absurd hc (Nat.not_lt_zero _)
  | succ count ih =>
    obtain ⟨step, hm, hr⟩ := h x s
    match step with
    | .error fault =>
      have ends : Mirrors (rounds round (count + 1) x) s (.error fault) := hm.error_bind
      obtain ⟨result, rest, hl, hf⟩ := ends
      cases result with
      | error fault' => cases hf; exact ⟨.error fault, rest, hl, hr⟩
      | ok a => cases hf
    | .ok (.inl y, rest) =>
      obtain ⟨result, last, hl, hread⟩ :=
        ih y { s with rest := rest } (Nat.lt_of_lt_of_le hr.1 (Nat.le_of_lt_succ hc))
      exact ⟨result, last, (bind_ok (mirrors_ok.mp hm)).trans hl, hr.2.trans hread⟩
    | .ok (.inr a, rest) => exact ⟨.ok a, rest, bind_ok (mirrors_ok.mp hm), hr⟩

theorem exists_loop_eq
    (h : ∀ x s, ∃ step, Mirrors (round x) s step ∧ IsRoundOf g read x s.rest step)
    (x : σ) (s : Cursor) :
    ∃ result rest, loop round x s = some (result, { s with rest := rest }) ∧
      read x s.rest = result.map fun a => (g a, rest) :=
  exists_rounds_eq h x s (Nat.lt_succ_self _)

theorem mirrors_loop (read : σ → List Char → Except Fault (α × List Char))
    (h : ∀ x s, ∃ step, Mirrors (round x) s step ∧ IsRoundOf id read x s.rest step)
    (x : σ) (s : Cursor) : Mirrors (loop round x) s (read x s.rest) :=
  exists_loop_eq h x s

end Loop

theorem mirrors_skipPast (stop : Char) (s : Cursor) :
    Mirrors (skipPast stop) s (.ok (!(s.rest.dropWhile (· ≠ stop)).isEmpty,
      (s.rest.dropWhile (· ≠ stop)).drop 1)) := by
  refine mirrors_loop (fun _ text => .ok (!(text.dropWhile (· ≠ stop)).isEmpty,
    (text.dropWhile (· ≠ stop)).drop 1)) (fun _ s => ?_) () s
  cases hr : s.rest with
  | nil => exact ⟨_, (mirrors_bump_nil hr).ok_bind (mirrors_pure _ _), rfl⟩
  | cons c rest =>
    refine ⟨_, (mirrors_bump c hr).ok_bind (mirrors_pure _ _), ?_⟩
    by_cases hc : c = stop
    · simp [IsRoundOf, hc]
    · simp [IsRoundOf, hc]

/-- The characters up to a terminator, which is taken too. -/
theorem mirrors_name (terminator : Char) (start name : List Char) (s : Cursor) :
    Mirrors (loop (nextOfName terminator start) name) s
      (match s.rest.dropWhile (· ≠ terminator) with
        | [] => .error ⟨.unexpectedEnd, start⟩
        | _ :: rest => .ok (name.reverse ++ s.rest.takeWhile (· ≠ terminator), rest)) := by
  refine mirrors_loop (fun name text => match text.dropWhile (· ≠ terminator) with
    | [] => .error ⟨.unexpectedEnd, start⟩
    | _ :: rest => .ok (name.reverse ++ text.takeWhile (· ≠ terminator), rest))
    (fun name s => ?_) name s
  cases hr : s.rest with
  | nil => exact ⟨_, (mirrors_bump_nil hr).ok_bind (mirrors_throw _ _), rfl⟩
  | cons c rest =>
    refine ⟨_, (mirrors_bump c hr).ok_bind (mirrors_pure _ _), ?_⟩
    by_cases hc : c = terminator
    · simp [IsRoundOf, hc]
    · simp [IsRoundOf, hc]

theorem mirrors_octalCode (text digits : List Char) (s : Cursor) :
    Mirrors (octalCode ('\\' :: text) digits) s (match Escape.ofOctal? digits with
      | some c => .ok (c, s.rest)
      | none => .error (Escape.bad digits text)) := by
  unfold octalCode
  cases Escape.ofOctal? digits with
  | some c => exact mirrors_pure c s
  | none => exact mirrors_throw _ s

theorem mirrors_octal (first : Char) (s : Cursor) :
    Mirrors (octal ('\\' :: text) first) s (Escape.octal text first s.rest) :=
  (mirrors_takeUpTo Escape.isOctal 2 s).ok_bind (mirrors_octalCode text _ _)

theorem mirrors_hex (marker : Char) (size : Nat) (s : Cursor) :
    Mirrors (hex ('\\' :: text) marker size) s (Escape.hex text marker size s.rest) := by
  refine (mirrors_takeUpTo Escape.isHex size s).ok_bind ?_
  unfold Escape.hex
  generalize (s.rest.take size).takeWhile Escape.isHex = digits
  by_cases hd : digits.length = size
  · simp only [hd, if_true]
    cases Escape.charOfCode? (Escape.value 16 digits) with
    | some c => exact mirrors_pure c _
    | none => exact mirrors_throw _ _
  · simp only [hd, if_false]
    exact mirrors_throw _ _

theorem mirrors_simpleEscape (c : Char) (s : Cursor) :
    Mirrors (simpleEscape ('\\' :: text) c) s (Escape.simple text c s.rest) := by
  unfold simpleEscape Escape.simple
  cases Escape.control? c with
  | some control => exact mirrors_pure control s
  | none =>
    cases Escape.hexSize? c with
    | some size => exact mirrors_hex c size s
    | none =>
      dsimp only
      split
      · exact mirrors_throw _ s
      · exact mirrors_pure c s

theorem mirrors_eatIf {kind : Char → Bool} {c : Char} (hr : s.rest = c :: rest)
    (hk : kind c = true) : Mirrors (eatIf kind) s (.ok (some c, rest)) :=
  mirrors_ok.mpr (eatIf_of_cons hr hk)

theorem Mirrors.eatIf_bind {kind : Char → Bool} {f : Option Char → Descent β}
    {read : Except Fault (β × List Char)} (hk : ∀ c ∈ s.rest.head?, kind c = false)
    (hf : Mirrors (f none) s read) : Mirrors (eatIf kind >>= f) s read := by
  have left : Mirrors (eatIf kind) s (.ok (none, s.rest)) := mirrors_ok.mpr (eatIf_of_not hk)
  exact left.ok_bind hf

/-- The third digit of an octal code tells it from the number of a group. -/
theorem mirrors_numbered (first : Char) (s : Cursor) :
    Mirrors (numbered ('\\' :: text) first) s (Escape.numbered text first s.rest) := by
  by_cases ho : ∃ second third tail, s.rest = second :: third :: tail ∧
      (Escape.isOctal first && Escape.isOctal second && Escape.isOctal third) = true
  · obtain ⟨second, third, tail, hr, ho⟩ := ho
    have all_octal : [first, second, third].all Escape.isOctal = true := by
      simpa [and_assoc] using ho
    have digits : second.isDigit = true := by
      simp only [Bool.and_eq_true] at ho
      exact Escape.isDigit_of_isOctal ho.1.2
    rw [hr]
    refine (mirrors_eatIf hr digits).ok_bind ?_
    refine (mirrors_eatIf (s := { s with rest := third :: tail }) rfl all_octal).ok_bind ?_
    have code := (mirrors_octalCode text [first, second, third] { s with rest := tail }).map
      Token.literal
    simp only [Escape.numbered, ho, if_true]
    cases hc : Escape.ofOctal? [first, second, third] <;> rw [hc] at code <;> exact code
  · rw [Escape.numbered_of_not_isOctal fun second third tail hr =>
      Bool.eq_false_iff.mpr fun h => ho ⟨second, third, tail, hr, h⟩]
    cases hr : s.rest with
    | nil =>
      refine .eatIf_bind (by simp [hr]) ?_
      simpa [Escape.groupNumber, hr] using mirrors_pure _ s
    | cons second tail =>
      cases hd : second.isDigit with
      | false =>
        refine .eatIf_bind (by simp [hr, hd]) ?_
        simpa [Escape.groupNumber, hd, hr] using mirrors_pure _ s
      | true =>
        refine (mirrors_eatIf hr hd).ok_bind (.eatIf_bind (fun third ht => ?_) ?_)
        · obtain ⟨more, rfl⟩ := List.head?_eq_some_iff.mp ht
          exact Bool.eq_false_iff.mpr fun h =>
            ho ⟨second, third, more, hr, by simpa [and_assoc] using h⟩
        · simpa [Escape.groupNumber, hd] using mirrors_pure _ { s with rest := tail }

/-- An escape sequence, after the backslash that the fault points at. -/
theorem mirrors_escape (hs : s.rest = '\\' :: text) : Mirrors escape s (Escape.item text) := by
  rw [escape]
  refine .place_bind ((mirrors_bump _ hs).ok_bind ?_)
  rw [hs]
  cases text with
  | nil => exact (mirrors_bump_nil rfl).ok_bind (mirrors_throw _ _)
  | cons c rest =>
    refine (mirrors_bump c rfl).ok_bind ?_
    unfold Escape.item
    dsimp only
    cases Category.ofLetter? c with
    | some category => exact mirrors_pure _ _
    | none =>
      cases Anchor.ofLetter? c with
      | some anchor => exact mirrors_pure _ _
      | none =>
        dsimp only
        split
        · exact (mirrors_octal _ _).map Token.literal
        · split
          · exact mirrors_numbered _ _
          · exact (mirrors_simpleEscape _ _).map Token.literal

theorem mirrors_classEscape (s : Cursor) :
    Mirrors (classEscape ('\\' :: s.rest)) s (Escape.member s.rest) := by
  cases hr : s.rest with
  | nil => exact (mirrors_bump_nil hr).ok_bind (mirrors_throw _ _)
  | cons c rest =>
    refine (mirrors_bump c hr).ok_bind ?_
    unfold Escape.member
    dsimp only
    cases Category.ofLetter? c with
    | some category => exact mirrors_pure _ _
    | none =>
      dsimp only
      split
      · exact mirrors_pure _ _
      · split
        · exact (mirrors_octal _ _).map Token.literal
        · exact (mirrors_simpleEscape _ _).map Token.literal

theorem mirrors_single (c : Char) (s : Cursor) :
    Mirrors (single (c :: s.rest) c) s (CharClass.single c s.rest) := by
  unfold single CharClass.single
  split
  case isTrue hc => exact hc ▸ mirrors_classEscape s
  case isFalse => exact mirrors_pure _ s

theorem rangeFollows_of_range {d : Char} (hs : s.rest = '-' :: d :: rest) (hd : d ≠ ']') :
    Mirrors rangeFollows s (.ok (true, s.rest)) := by
  rw [mirrors_ok, rangeFollows]
  split
  case h_1 d' rest' hs' =>
    obtain ⟨-, he⟩ := List.cons.inj (hs.symm.trans hs')
    simp [← (List.cons.inj he).1, hd]
  case h_2 hn => exact absurd hs (hn d rest)

theorem rangeFollows_of_not (h : ∀ d rest, s.rest = '-' :: d :: rest → d = ']') :
    Mirrors rangeFollows s (.ok (false, s.rest)) := by
  rw [mirrors_ok, rangeFollows]
  split
  case h_1 d rest hs => simp [h d rest hs]
  case h_2 => rfl

/-- The text from the first character on is the start of the member. -/
theorem mirrors_member (opened : List Char) (c : Char) (s : Cursor) :
    Mirrors (member opened (c :: s.rest) c) s (CharClass.member c s.rest) := by
  have lower := mirrors_single c s
  unfold CharClass.member
  cases hl : CharClass.single c s.rest with
  | error fault => exact (hl ▸ lower).error_bind
  | ok out =>
    obtain ⟨item, rest⟩ := out
    refine (hl ▸ lower).ok_bind ?_
    cases item with
    | literal lo =>
      by_cases hm : ∃ d more, rest = '-' :: d :: more ∧ d ≠ ']'
      · obtain ⟨d, more, rfl, hd⟩ := hm
        refine (rangeFollows_of_range rfl hd).ok_bind ((mirrors_bump '-' rfl).ok_bind
          (.place_bind ((mirrors_bump d rfl).ok_bind ?_)))
        have upper := mirrors_single d { s with rest := more }
        simp only [if_neg hd, CharClass.range]
        cases hu : CharClass.single d more with
        | error fault => exact (hu ▸ upper).error_bind
        | ok out =>
          obtain ⟨end_, after⟩ := out
          refine (hu ▸ upper).ok_bind ?_
          cases end_ with
          | literal hi =>
            dsimp only
            split
            · exact mirrors_throw _ _
            · exact mirrors_pure _ _
          | _ => exact mirrors_throw _ _
      · have hn (d : Char) (more : List Char) (he : rest = '-' :: d :: more) : d = ']' :=
          not_not.mp fun hd => hm ⟨d, more, he, hd⟩
        refine (rangeFollows_of_not hn).ok_bind ?_
        simp only [Bool.false_eq_true, if_false]
        split
        case h_1 he => cases he
        case h_2 d more he =>
          cases he
          rw [if_pos (hn d more rfl)]
          exact mirrors_pure _ _
        case h_3 he =>
          cases he
          exact mirrors_pure _ _
    | _ => exact mirrors_pure _ _

/-- A class from any cursor on, as its members are read. -/
theorem mirrors_members (first : Bool) (items : List Token) (s : Cursor) :
    Mirrors (loop (nextMember opened) (first, items)) s
      (CharClass.members opened first items s.rest) := by
  refine mirrors_loop (fun x => CharClass.members opened x.1 x.2) (fun x s => ?_)
    (first, items) s
  obtain ⟨first, items⟩ := x
  cases hr : s.rest with
  | nil =>
    refine ⟨.error ⟨.unterminatedClass, opened⟩,
      .place_bind ((mirrors_bump_nil hr).ok_bind (mirrors_throw _ _)), ?_⟩
    simp [IsRoundOf, CharClass.members]
  | cons c rest =>
    by_cases hend : c = ']' ∧ first = false
    · refine ⟨.ok (.inr items.reverse, rest), .place_bind ((mirrors_bump c hr).ok_bind ?_), ?_⟩
      · simp only [hend, and_self, if_true]
        exact mirrors_pure _ _
      · simp [IsRoundOf, CharClass.members_cons, hend]
    · have hm := mirrors_member opened c { s with rest := rest }
      cases hc : CharClass.member c rest with
      | error fault =>
        refine ⟨.error fault, .place_bind ((mirrors_bump c hr).ok_bind ?_), ?_⟩
        · simp only [hend, if_false, hr]
          exact (hc ▸ hm).error_bind
        · simp [IsRoundOf, CharClass.members_cons, hend, hc]
      | ok out =>
        refine ⟨.ok (.inl (false, out.1 :: items), out.2),
          .place_bind ((mirrors_bump c hr).ok_bind ?_), ?_, ?_⟩
        · simp only [hend, if_false, hr]
          exact (hc ▸ hm).ok_bind (mirrors_pure _ _)
        · exact Nat.lt_succ_of_le (CharClass.suffix_of_member hc).length_le
        · simp [CharClass.members_cons, hend, hc]

theorem mirrors_charClass (hs : s.rest = '[' :: text) :
    Mirrors charClass s (CharClass.read text) := by
  rw [charClass]
  refine .place_bind ((mirrors_bump _ hs).ok_bind ?_)
  rw [hs]
  by_cases hn : text.head? = some '^'
  · obtain ⟨rest, rfl⟩ := List.head?_eq_some_iff.mp hn
    exact (mirrors_eat '^' rfl).ok_bind ((mirrors_members true [] _).map (CharClass.token true))
  · rw [CharClass.read_plain hn]
    exact (mirrors_eat_of_ne hn).ok_bind ((mirrors_members true [] _).map (CharClass.token false))

theorem quantifier_of_sign {c : Char} (hs : s.rest = c :: rest) {bounds : UInt32 × Option UInt32}
    (hb : (c, bounds) ∈ [('*', 0, none), ('+', 1, none), ('?', 0, some 1)]) :
    Mirrors quantifier s (.ok (some bounds, rest)) := by
  have taken : Mirrors (bump >>= fun _ => pure (some bounds)) s (.ok (some bounds, rest)) :=
    (mirrors_bump c hs).ok_bind (mirrors_pure _ _)
  rw [quantifier]
  refine .place_bind (.peek_bind ?_)
  simp only [List.mem_cons, Prod.mk.injEq, List.not_mem_nil, or_false] at hb
  rcases hb with ⟨rfl, rfl⟩ | ⟨rfl, rfl⟩ | ⟨rfl, rfl⟩ <;> rw [hs] <;> exact taken

theorem quantifier_of_brace (hs : s.rest = '{' :: text) :
    Mirrors quantifier s (match Count.scan? ('{' :: text) with
      | none => .ok (none, s.rest)
      | some (n, count) =>
        match count.bounds? with
        | some bounds => .ok (some bounds, ('{' :: text).drop n)
        | none => .error ⟨.repeatBounds, '{' :: text⟩) := by
  rw [quantifier]
  refine .place_bind (.peek_bind ?_)
  rw [hs]
  dsimp only [List.head?_cons]
  cases Count.scan? ('{' :: text) with
  | none => exact hs ▸ mirrors_pure none s
  | some out =>
    obtain ⟨n, count⟩ := out
    have taken : Mirrors (bumps n) s (.ok ((), ('{' :: text).drop n)) :=
      mirrors_ok.mpr (hs ▸ bumps_eq n s)
    refine taken.ok_bind ?_
    dsimp only
    cases count.bounds? with
    | some bounds => exact mirrors_pure _ _
    | none => exact mirrors_throw _ _

theorem mirrors_groupName (terminator : Char) (s : Cursor) :
    Mirrors (groupName terminator) s (GroupName.read terminator s.rest) := by
  have letters := mirrors_name terminator s.rest [] s
  rw [groupName]
  refine .place_bind ?_
  unfold GroupName.read
  cases hd : s.rest.dropWhile (· ≠ terminator) with
  | nil =>
    rw [hd] at letters
    exact letters.error_bind
  | cons c rest =>
    rw [hd] at letters
    refine letters.ok_bind ?_
    dsimp only [List.reverse_nil, List.nil_append]
    split
    · exact mirrors_pure _ _
    · exact mirrors_throw _ _

def header : Flags × Option Flags → Lexeme
  | (added, none) => .flags added
  | (added, some removed) => .opening (.flagged added removed)

def letters (opened : List Char) :
    Flags × Option Flags → List Char → Except Fault (Lexeme × List Char)
  | (added, none) => GroupHeader.additions opened added
  | (added, some removed) => GroupHeader.removals opened added removed

theorem exists_additions_round (opened : List Char) (added : Flags) (s : Cursor) :
    ∃ step, Mirrors (nextLetter opened (added, none)) s step ∧
      IsRoundOf header (letters opened) (added, none) s.rest step := by
  cases hr : s.rest with
  | nil => exact ⟨_, (mirrors_bump_nil hr).ok_bind (mirrors_throw _ _), rfl⟩
  | cons c rest =>
    have bumped := mirrors_bump c hr
    by_cases hclose : c = ')'
    · subst hclose
      exact ⟨.ok (.inr (added, none), rest), bumped.ok_bind (mirrors_pure _ _), rfl⟩
    by_cases hcolon : c = ':'
    · subst hcolon
      exact ⟨.ok (.inr (added, some ∅), rest), bumped.ok_bind (mirrors_pure _ _), rfl⟩
    by_cases hminus : c = '-'
    · subst hminus
      exact ⟨.ok (.inl (added, some ∅), rest), bumped.ok_bind (mirrors_pure _ _),
        Nat.lt_succ_self _, rfl⟩
    cases hf : Flags.ofLetter? c with
    | some flag =>
      refine ⟨.ok (.inl (added ∪ flag, none), rest), bumped.ok_bind ?_, Nat.lt_succ_self _,
        GroupHeader.additions_letter hf opened added rest⟩
      simp only [hclose, hcolon, hminus, false_and, if_false, hf]
      exact mirrors_pure _ _
    | none =>
      refine ⟨.error ⟨.badFlag c, rest⟩, bumped.ok_bind ?_, ?_⟩
      · simp only [hclose, hcolon, hminus, false_and, if_false, hf]
        exact .place_bind (mirrors_throw _ _)
      · simp [IsRoundOf, letters, GroupHeader.additions, hf]

theorem exists_removals_round (opened : List Char) (added removed : Flags) (s : Cursor) :
    ∃ step, Mirrors (nextLetter opened (added, some removed)) s step ∧
      IsRoundOf header (letters opened) (added, some removed) s.rest step := by
  cases hr : s.rest with
  | nil => exact ⟨_, (mirrors_bump_nil hr).ok_bind (mirrors_throw _ _), rfl⟩
  | cons c rest =>
    have bumped := mirrors_bump c hr
    by_cases hcolon : c = ':'
    · subst hcolon
      exact ⟨.ok (.inr (added, some removed), rest), bumped.ok_bind (mirrors_pure _ _), rfl⟩
    cases hf : Flags.ofLetter? c with
    | some flag =>
      refine ⟨.ok (.inl (added, some (removed ∪ flag)), rest), bumped.ok_bind ?_,
        Nat.lt_succ_self _, GroupHeader.removals_letter hf opened added removed rest⟩
      simp only [hcolon, reduceCtorEq, and_false, if_false, hf]
      exact mirrors_pure _ _
    | none =>
      refine ⟨.error ⟨.badFlag c, rest⟩, bumped.ok_bind ?_, ?_⟩
      · simp only [hcolon, reduceCtorEq, and_false, if_false, hf]
        exact .place_bind (mirrors_throw _ _)
      · simp [IsRoundOf, letters, GroupHeader.removals, hf]

theorem exists_letters_eq (opened : List Char) (x : Flags × Option Flags) (s : Cursor) :
    ∃ result rest, loop (nextLetter opened) x s = some (result, { s with rest := rest }) ∧
      letters opened x s.rest = result.map fun flags => (header flags, rest) := by
  refine exists_loop_eq (fun x s => ?_) x s
  match x with
  | (added, none) => exact exists_additions_round opened added s
  | (added, some removed) => exact exists_removals_round opened added removed s

end RegexTypeset.Descent
