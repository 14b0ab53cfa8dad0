import RegexTypeset.Pattern

/-! # Reading by descent

A pattern can also be read by descent: a cursor moves through the text character by
character, and the reader of a group calls the one for alternatives again. Rounds of a loop
and calls within calls are counted, and there is no outcome if they do not come to an end by
then. That there always is one, what it leaves of the text and what it does to the flags and
to the depth of the groups are theorems, and so is that a descent reads every pattern as the
reading by lexemes does.
-/
namespace RegexTypeset

/-- Where a reading by descent stands: the text that is left, the flags in scope and those
for the whole pattern, how many groups are open, and how many were open at once so far. -/
structure Cursor where
  rest : List Char
  scope : Flags
  global : Flags
  depth : Nat
  deepest : Nat
deriving DecidableEq, Repr

namespace Cursor

def start (text : List Char) (flags : Flags) : Cursor := ⟨text, flags, flags, 0, 0⟩

def isVerbose (s : Cursor) : Bool := s.scope.has .verbose

def deeper (s : Cursor) : Cursor :=
  { s with depth := s.depth + 1, deepest := max s.deepest (s.depth + 1) }

def shallower (s : Cursor) : Cursor := { s with depth := s.depth - 1 }

def addFlags (s : Cursor) (added : Flags) : Cursor :=
  { s with scope := s.scope ∪ added, global := s.global ∪ added }

end Cursor

/-- A reader takes a cursor to its result and to the cursor where it stopped, which a fault
keeps too. There may be no outcome. -/
abbrev Descent := ExceptT Fault (StateT Cursor Option)

namespace Descent

def rounds {σ α : Type} (round : σ → Descent (σ ⊕ α)) : Nat → σ → Descent α
  | 0, _ => fun _ => none
  | n + 1, x => do
    match ← round x with
    | .inl x => rounds round n x
    | .inr a => return a

/-- A loop has a round for each character that is left, and one more. Were it to go on then, some
round would have taken no character. -/
def loop {σ α : Type} (round : σ → Descent (σ ⊕ α)) (x : σ) : Descent α := fun s =>
  rounds round (s.rest.length + 1) x s

def place : Descent (List Char) := fun s => some (.ok s.rest, s)

def isVerbose : Descent Bool := fun s => some (.ok s.isVerbose, s)

def peek : Descent (Option Char) := fun s => some (.ok s.rest.head?, s)

def bump : Descent (Option Char) := fun s =>
  some (.ok s.rest.head?, { s with rest := s.rest.tail })

def bumps : Nat → Descent Unit
  | 0 => return ()
  | n + 1 => do
    let _ ← bump
    bumps n

def eatIf (kind : Char → Bool) : Descent (Option Char) := do
  match ← peek with
  | some c => if kind c then bump else return none
  | none => return none

def eat (c : Char) : Descent Bool := return (← eatIf (· == c)).isSome

def takeUpTo (kind : Char → Bool) : Nat → Descent (List Char)
  | 0 => return []
  | n + 1 => do
    match ← eatIf kind with
    | some c => return c :: (← takeUpTo kind n)
    | none => return []

def skipPast (stop : Char) : Descent Bool :=
  loop (fun () => do
    match ← bump with
    | none => return .inr false
    | some c => return if c = stop then .inr true else .inl ()) ()

def expectClose (opened : List Char) : Descent Unit := do
  if ← eat ')' then return () else throw ⟨.unterminatedGroup, opened⟩

/-- The bounds of a quantifier. A brace that starts no count is not taken. -/
def quantifier : Descent (Option (UInt32 × Option UInt32)) := do
  let opened ← place
  match ← peek with
  | some '*' => let _ ← bump; return some (0, none)
  | some '+' => let _ ← bump; return some (1, none)
  | some '?' => let _ ← bump; return some (0, some 1)
  | _ =>
    match Count.scan? opened with
    | none => return none
    | some (n, count) =>
      bumps n
      match count.bounds? with
      | some bounds => return some bounds
      | none => throw ⟨.repeatBounds, opened⟩

def quantified (opened : List Char) (q : Quantifier) : List Token → Descent (List Token)
  | [] => throw ⟨.nothingToRepeat, opened⟩
  | .anchor _ :: _ => throw ⟨.nothingToRepeat, opened⟩
  | .repeated _ _ :: _ => throw ⟨.multipleRepeat, opened⟩
  | body :: items => return .repeated q body :: items

def quantify (items : List Token) : Descent (List Token) := do
  let opened ← place
  match ← quantifier with
  | none =>
    let _ ← bump
    return .literal '{' :: items
  | some (min, max) =>
    let isLazy ← eat '?'
    quantified opened ⟨min, max, isLazy⟩ items

def badEscape (opened written : List Char) : Fault :=
  ⟨.badEscape (String.ofList ('\\' :: written)), opened⟩

def octalCode (opened digits : List Char) : Descent Char :=
  match Escape.ofOctal? digits with
  | some c => return c
  | none => throw (badEscape opened digits)

def octal (opened : List Char) (first : Char) : Descent Char := do
  octalCode opened (first :: (← takeUpTo Escape.isOctal 2))

def hex (opened : List Char) (marker : Char) (size : Nat) : Descent Char := do
  let digits ← takeUpTo Escape.isHex size
  match if digits.length = size then Escape.charOfCode? (Escape.value 16 digits) else none with
  | some c => return c
  | none => throw (badEscape opened (marker :: digits))

def simpleEscape (opened : List Char) (c : Char) : Descent Char :=
  match Escape.control? c, Escape.hexSize? c with
  | some control, _ => return control
  | none, some size => hex opened c size
  | none, none => if c.isAlphanum then throw (badEscape opened [c]) else return c

def numbered (opened : List Char) (first : Char) : Descent Token := do
  match ← eatIf Char.isDigit with
  | none => return .unrendered (.backreference (String.ofList [first]))
  | some second =>
    match ← eatIf fun d => [first, second, d].all Escape.isOctal with
    | none => return .unrendered (.backreference (String.ofList [first, second]))
    | some third => return .literal (← octalCode opened [first, second, third])

def escape : Descent Token := do
  let opened ← place
  let _ ← bump
  match ← bump with
  | none => throw (badEscape opened [])
  | some c =>
    match Category.ofLetter? c, Anchor.ofLetter? c with
    | some category, _ => return .category category
    | none, some anchor => return .anchor anchor
    | none, none =>
      if c = '0' then return .literal (← octal opened c)
      else if c.isDigit then numbered opened c
      else return .literal (← simpleEscape opened c)

def classEscape (opened : List Char) : Descent Token := do
  match ← bump with
  | none => throw (badEscape opened [])
  | some c =>
    match Category.ofLetter? c with
    | some category => return .category category
    | none =>
      if c = 'b' then return .literal '\x08'
      else if Escape.isOctal c then return .literal (← octal opened c)
      else return .literal (← simpleEscape opened c)

def rangeFollows : Descent Bool := fun s =>
  some (.ok (match s.rest with | '-' :: c :: _ => c ≠ ']' | _ => false), s)

def single (start : List Char) (c : Char) : Descent Token :=
  if c = '\\' then classEscape start else return .literal c

def member (opened start : List Char) (c : Char) : Descent Token := do
  match ← single start c with
  | .literal lo =>
    if ← rangeFollows then
      let _ ← bump
      let upper ← place
      match ← bump with
      | none => throw ⟨.unterminatedClass, opened⟩
      | some d =>
        match ← single upper d with
        | .literal hi => if hi < lo then throw ⟨.badRange lo hi, start⟩ else return .charRange lo hi
        | _ => throw ⟨.badRange lo '\\', upper⟩
    else return .literal lo
  | item => return item

def nextMember (opened : List Char) : Bool × List Token → Descent ((Bool × List Token) ⊕ List Token)
  | (first, items) => do
    let start ← place
    match ← bump with
    | none => throw ⟨.unterminatedClass, opened⟩
    | some c =>
      if c = ']' ∧ first = false then return .inr items.reverse
      else return .inl (false, (← member opened start c) :: items)

def charClass : Descent Token := do
  let opened ← place
  let _ ← bump
  let negated ← eat '^'
  return CharClass.token negated (← loop (nextMember opened) (true, []))

def nextOfName (terminator : Char) (start name : List Char) : Descent (List Char ⊕ List Char) := do
  match ← bump with
  | none => throw ⟨.unexpectedEnd, start⟩
  | some c => return if c = terminator then .inr name.reverse else .inl (c :: name)

def groupName (terminator : Char) : Descent String := do
  let start ← place
  let name ← loop (nextOfName terminator start) []
  if GroupName.isValid terminator name then return String.ofList name
  else throw ⟨.badGroupName (String.ofList name), start⟩

/-- One more letter of the flags in a header, or the end of these flags. There are those to set
and, behind a hyphen, those to clear. -/
def nextLetter (opened : List Char) :
    Flags × Option Flags → Descent ((Flags × Option Flags) ⊕ (Flags × Option Flags))
  | (added, removed) => do
    match ← bump with
    | none => throw ⟨.unexpectedEnd, opened⟩
    | some c =>
      if c = ')' ∧ removed = none then return .inr (added, none)
      else if c = ':' then return .inr (added, some (removed.getD ∅))
      else if c = '-' ∧ removed = none then return .inl (added, some ∅)
      else
        match Flags.ofLetter? c, removed with
        | none, _ => throw ⟨.badFlag c, ← place⟩
        | some flag, some removed => return .inl (added, some (removed ∪ flag))
        | some flag, none => return .inl (added ∪ flag, none)

def joined : List (List Token) → List Token
  | [branch] => branch
  | branches => [.alternation branches]

def sign : Char → Token
  | '.' => .wildcard
  | '^' => .anchor .lineStart
  | '$' => .anchor .lineEnd
  | c => .literal c

section

-- the reader for the alternatives in a group
variable (inner : Descent (List Token))

def content (opened : List Char) : Descent (List Token) := do
  let items ← inner
  expectClose opened
  return items

def lookaround (opened : List Char) (ahead negative : Bool) : Descent (Option Token) := do
  let _ ← content inner opened
  return some (.unrendered (.lookaround ahead negative))

/-- Alternatives under flags of their own. The flags are given back at a fault as well. -/
def flagged (added removed : Flags) : Descent (List Token) := fun s => do
  let (result, last) ← inner { s with scope := (s.scope ∪ added) \ removed }
  some (result, { last with scope := s.scope })

def flagGroup (opened : List Char) : Descent (Option Token) := do
  match ← loop (nextLetter opened) (∅, none) with
  | (added, none) =>
    modify fun s => s.addFlags added
    return none
  | (added, some removed) =>
    let items ← flagged inner added removed
    expectClose opened
    return some (.group items)

def extension (opened : List Char) : Descent (Option Token) := do
  match ← peek with
  | none => throw ⟨.unexpectedEnd, ← place⟩
  | some ':' =>
    let _ ← bump
    return some (.group (← content inner opened))
  | some 'P' =>
    let _ ← bump
    if ← eat '<' then
      let _ ← groupName '>'
      return some (.group (← content inner opened))
    else if ← eat '=' then
      return some (.unrendered (.backreference (← groupName ')')))
    else throw ⟨.unknownExtension 'P', ← place⟩
  | some '=' =>
    let _ ← bump
    lookaround inner opened true false
  | some '!' =>
    let _ ← bump
    lookaround inner opened true true
  | some '<' =>
    let _ ← bump
    match ← bump with
    | some '=' => lookaround inner opened false false
    | some '!' => lookaround inner opened false true
    | _ => throw ⟨.unknownExtension '<', opened⟩
  | some '#' =>
    if ← skipPast ')' then return none else throw ⟨.unterminatedGroup, opened⟩
  | some '(' =>
    let _ ← bump
    let name ← groupName ')'
    let _ ← content inner opened
    return some (.unrendered (.conditional name))
  | some c =>
    if c = '-' ∨ (Flags.ofLetter? c).isSome then flagGroup inner opened
    else throw ⟨.unknownExtension c, ← place⟩

def groupBody : Descent (Option Token) := do
  let opened ← place
  let _ ← bump
  if ← eat '?' then extension inner opened else return some (.group (← content inner opened))

/-- What starts with a parenthesis. The depth is given back at a fault as well. -/
def group : Descent (Option Token) := fun s =>
  if s.depth = Nesting.maxDepth then some (.error ⟨.tooDeep, s.rest⟩, s)
  else do
    let (result, last) ← groupBody inner s.deeper
    some (result, last.shallower)

def atom : Descent (Option Token) := do
  match ← peek with
  | none => return none
  | some '(' => group inner
  | some '[' => return some (← charClass)
  | some '\\' => return some (← escape)
  | some c =>
    let _ ← bump
    return some (sign c)

def nextItem (items : List Token) : Descent (List Token ⊕ List Token) := do
  match ← peek with
  | none => return .inr items.reverse
  | some c =>
    if (← isVerbose) && isBlank c then
      let _ ← bump
      return .inl items
    else if (← isVerbose) && c == '#' then
      let _ ← skipPast '\n'
      return .inl items
    else if c = '|' ∨ c = ')' then return .inr items.reverse
    else if c = '*' ∨ c = '+' ∨ c = '?' ∨ c = '{' then return .inl (← quantify items)
    else
      match ← atom inner with
      | some token => return .inl (token :: items)
      | none => return .inl items

def sequence : Descent (List Token) := loop (nextItem inner) []

def nextBranch (branches : List (List Token)) : Descent (List (List Token) ⊕ List Token) := do
  let branch ← sequence inner
  if ← eat '|' then return .inl (branch :: branches)
  else return .inr (joined (branch :: branches).reverse)

end

/-- Branches with bars between them, with so many calls for groups in groups at most. -/
def alternation : Nat → Descent (List Token)
  | 0 => fun _ => none
  | calls + 1 => loop (nextBranch (alternation calls)) []

def pattern (calls : Nat) : Descent (List Token × Flags) := do
  let tokens ← alternation calls
  match ← peek with
  | some _ => throw ⟨.unbalancedParenthesis, ← place⟩
  | none => return (tokens, (← get).global)

def readOnce (calls : Nat) (text : List Char) (flags : Flags) :
    Option (Except Fault (List Token × Flags)) :=
  (pattern calls (Cursor.start text flags)).map Prod.fst

def read (calls : Nat) (text : List Char) (flags : Flags) :
    Option (Except Fault (List Token × Flags)) := do
  match ← readOnce calls text flags with
  | .error fault => some (.error fault)
  | .ok (tokens, found) =>
    if Pattern.rereads flags found then readOnce calls text found else some (.ok (tokens, found))

section

variable {α β : Type} {p : Descent α} {f : α → Descent β} {s t : Cursor}

theorem bind_eq (p : Descent α) (f : α → Descent β) (s : Cursor) :
    (p >>= f) s = (p s).bind fun (result, t) => ExceptT.bindCont f result t := rfl

theorem bind_ok {a : α} (h : p s = some (.ok a, t)) : (p >>= f) s = f a t := by
  rw [bind_eq, h]
  rfl

/-- A fault ends the readers in sequence. -/
theorem bind_error {fault : Fault} (h : p s = some (.error fault, t)) :
    (p >>= f) s = some (.error fault, t) := by
  rw [bind_eq, h]
  rfl

theorem bumps_eq (n : Nat) (s : Cursor) :
    bumps n s = some (.ok (), { s with rest := s.rest.drop n }) := by
  induction n generalizing s with
  | zero => rfl
  | succ n ih =>
    have taken : bump s = some (.ok s.rest.head?, { s with rest := s.rest.tail }) := rfl
    rw [bumps, bind_ok taken, ih, List.drop_tail]

theorem eatIf_eq (kind : Char → Bool) (s : Cursor) :
    eatIf kind s = (match s.rest.head? with
      | some c => if kind c then bump else pure none
      | none => pure none) s := rfl

theorem eatIf_of_cons {kind : Char → Bool} {c : Char} {rest : List Char} (h : s.rest = c :: rest)
    (hk : kind c = true) : eatIf kind s = some (.ok (some c), { s with rest := rest }) := by
  rw [eatIf_eq, h, List.head?_cons]
  simp only [hk, if_true, bump, h, List.head?_cons, List.tail_cons]

theorem eatIf_of_not {kind : Char → Bool} (h : ∀ c ∈ s.rest.head?, kind c = false) :
    eatIf kind s = some (.ok none, s) := by
  rw [eatIf_eq]
  cases hr : s.rest.head? with
  | none => rfl
  | some c => simp only [h c hr, Bool.false_eq_true, if_false]; rfl

theorem eat_of_cons {c : Char} {rest : List Char} (h : s.rest = c :: rest) :
    eat c s = some (.ok true, { s with rest := rest }) := by
  have taken : eatIf (· == c) s = some (.ok (some c), { s with rest := rest }) :=
    eatIf_of_cons h (beq_self_eq_true c)
  exact bind_ok taken

theorem eat_of_ne {c : Char} (h : s.rest.head? ≠ some c) : eat c s = some (.ok false, s) := by
  have left : eatIf (· == c) s = some (.ok none, s) :=
    eatIf_of_not fun d hd => beq_false_of_ne fun he => h (he ▸ hd)
  exact bind_ok left

end

def IncludedIn {α : Type} (p q : Descent α) : Prop := ∀ s out, p s = some out → q s = some out

section

variable {σ α β : Type} {p q : Descent α} {f g : α → Descent β}

theorem IncludedIn.refl (p : Descent α) : IncludedIn p p := fun _ _ => id

theorem IncludedIn.bind (h : IncludedIn p q) (hf : ∀ a, IncludedIn (f a) (g a)) :
    IncludedIn (p >>= f) (q >>= g) := by
  intro s out he
  rw [bind_eq] at he ⊢
  obtain ⟨⟨result, t⟩, hp, ht⟩ := Option.bind_eq_some_iff.mp he
  rw [h s _ hp]
  cases result with
  | ok a => exact hf a t out ht
  | error fault => exact ht

theorem IncludedIn.after (p : Descent α) (hf : ∀ a, IncludedIn (f a) (g a)) :
    IncludedIn (p >>= f) (p >>= g) := (IncludedIn.refl p).bind hf

theorem rounds_includedIn {round round' : σ → Descent (σ ⊕ α)}
    (h : ∀ x, IncludedIn (round x) (round' x)) (n : Nat) (x : σ) :
    IncludedIn (rounds round n x) (rounds round' n x) := by
  induction n generalizing x with
  | zero => exact .refl _
  | succ n ih =>
    refine (h x).bind fun next => ?_
    cases next with
    | inl x => exact ih x
    | inr a => exact .refl _

theorem loop_includedIn {round round' : σ → Descent (σ ⊕ α)}
    (h : ∀ x, IncludedIn (round x) (round' x)) (x : σ) :
    IncludedIn (loop round x) (loop round' x) := fun s => rounds_includedIn h _ x s

end

section

variable {inner inner' : Descent (List Token)} (h : IncludedIn inner inner')
include h

theorem content_includedIn (opened : List Char) :
    IncludedIn (content inner opened) (content inner' opened) :=
  h.bind fun _ => .refl _

theorem lookaround_includedIn (opened : List Char) (ahead negative : Bool) :
    IncludedIn (lookaround inner opened ahead negative)
      (lookaround inner' opened ahead negative) :=
  (content_includedIn h opened).bind fun _ => .refl _

theorem flagged_includedIn (added removed : Flags) :
    IncludedIn (flagged inner added removed) (flagged inner' added removed) := by
  intro s out he
  obtain ⟨read, hp, ht⟩ := Option.bind_eq_some_iff.mp he
  exact Option.bind_eq_some_iff.mpr ⟨read, h _ read hp, ht⟩

theorem flagGroup_includedIn (opened : List Char) :
    IncludedIn (flagGroup inner opened) (flagGroup inner' opened) := by
  refine .after _ fun flags => ?_
  obtain ⟨added, _ | removed⟩ := flags
  · exact .refl _
  · exact (flagged_includedIn h added removed).bind fun _ => .refl _

theorem extension_includedIn (opened : List Char) :
    IncludedIn (extension inner opened) (extension inner' opened) := by
  have grouped := (content_includedIn h opened).bind fun items =>
    IncludedIn.refl (pure (some (Token.group items)))
  refine .after _ fun kind => ?_
  split
  · exact .refl _
  · exact .after _ fun _ => grouped
  · refine .after _ fun _ => .after _ fun named => ?_
    split
    · exact .after _ fun _ => grouped
    · exact .refl _
  · exact .after _ fun _ => lookaround_includedIn h opened true false
  · exact .after _ fun _ => lookaround_includedIn h opened true true
  · refine .after _ fun _ => .after _ fun direction => ?_
    split
    · exact lookaround_includedIn h opened false false
    · exact lookaround_includedIn h opened false true
    · exact .refl _
  · exact .refl _
  · exact .after _ fun _ => .after _ fun _ => (content_includedIn h opened).bind fun _ => .refl _
  · split
    · exact flagGroup_includedIn h opened
    · exact .refl _

theorem group_includedIn : IncludedIn (group inner) (group inner') := by
  have body : IncludedIn (groupBody inner) (groupBody inner') := by
    refine .after _ fun opened => .after _ fun _ => .after _ fun header => ?_
    split
    · exact extension_includedIn h opened
    · exact (content_includedIn h opened).bind fun _ => .refl _
  intro s out he
  unfold group at he ⊢
  split at he
  case isTrue hd => rw [if_pos hd]; exact he
  case isFalse hd =>
    rw [if_neg hd]
    obtain ⟨read, hp, ht⟩ := Option.bind_eq_some_iff.mp he
    exact Option.bind_eq_some_iff.mpr ⟨read, body _ read hp, ht⟩

theorem atom_includedIn : IncludedIn (atom inner) (atom inner') := by
  refine .after _ fun sign => ?_
  split
  case h_2 => exact group_includedIn h
  all_goals exact .refl _

theorem nextItem_includedIn (items : List Token) :
    IncludedIn (nextItem inner items) (nextItem inner' items) := by
  refine .after _ fun sign => ?_
  split
  · exact .refl _
  · refine .after _ fun _ => ?_
    split
    · exact .refl _
    · refine .after _ fun _ => ?_
      split
      · exact .refl _
      · split
        · exact .refl _
        · split
          · exact .refl _
          · exact (atom_includedIn h).bind fun _ => .refl _

theorem nextBranch_includedIn (branches : List (List Token)) :
    IncludedIn (nextBranch inner branches) (nextBranch inner' branches) :=
  (loop_includedIn (nextItem_includedIn h) []).bind fun _ => .refl _

end

/-- More calls keep each outcome. -/
theorem alternation_includedIn {calls more : Nat} (hm : calls ≤ more) :
    IncludedIn (alternation calls) (alternation more) := by
  induction calls generalizing more with
  | zero => exact fun _ _ he => by cases he
  | succ calls ih =>
    obtain ⟨more, rfl⟩ := Nat.exists_eq_succ_of_ne_zero (Nat.ne_of_gt (Nat.lt_of_lt_of_le
      (Nat.succ_pos calls) hm))
    exact loop_includedIn (nextBranch_includedIn (ih (Nat.le_of_succ_le_succ hm))) []

end Descent

end RegexTypeset
