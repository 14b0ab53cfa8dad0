import RegexTypeset.Proofs.Descent
import RegexTypeset.Proofs.GivenFlags

/-! # What a descent keeps

Every reader ends, wherever it starts. It leaves an end of the text that it was given and the
depth of the groups as it was, also at a fault, and it takes no flag from those of the whole
pattern. Each round of a loop and each reader of an item takes at least one character, so the
text bounds loops and recursion; a reader of items in a row stops where something can follow them.
-/
namespace RegexTypeset

namespace Flags

theorem has_union_right (f g : Flags) : (f ∪ g).has g = true := by
  rw [union_comm]
  exact has_union_left g f

theorem has_trans {f g h : Flags} (hf : f.has g = true) (hg : g.has h = true) : f.has h = true := by
  rw [has_iff_union] at *
  rw [← hf, union_assoc, hg]

theorem has_union {f g h : Flags} (hg : f.has g = true) (hh : f.has h = true) :
    f.has (g ∪ h) = true := by
  rw [has_iff_union] at *
  rw [← union_assoc, hg, hh]

theorem has_empty (f : Flags) : f.has ∅ = true := has_iff_union.mpr (union_empty f)

end Flags

def Cursor.StopsAt (stops : List Char) (s : Cursor) : Prop := ∀ c ∈ s.rest.head?, c ∈ stops

namespace Descent

variable {σ α β : Type} {s t u : Cursor} {p : Descent α} {f : α → Descent β} {n : Nat}

def Returns (p : Descent α) (s : Cursor) (post : Except Fault α → Cursor → Prop) : Prop :=
  ∃ result last, p s = some (result, last) ∧ post result last

section Returns

variable {post post' : Except Fault α → Cursor → Prop} {postB : Except Fault β → Cursor → Prop}

theorem Returns.mono (h : Returns p s post)
    (hp : ∀ result last, post result last → post' result last) : Returns p s post' := by
  obtain ⟨result, last, he, hr⟩ := h
  exact ⟨result, last, he, hp result last hr⟩

/-- What is known of an outcome holds of the one that there is. -/
theorem Returns.of_eq (h : Returns p s post) {result : Except Fault α}
    (hp : p s = some (result, t)) : post result t := by
  obtain ⟨result', t', hp', hr⟩ := h
  obtain ⟨rfl, rfl⟩ := Prod.mk.inj (Option.some.inj (hp'.symm.trans hp))
  exact hr

/-- A fault ends the readers in sequence. -/
theorem Returns.bind (h : Returns p s post) (hok : ∀ a t, post (.ok a) t → Returns (f a) t postB)
    (herr : ∀ fault t, post (.error fault) t → postB (.error fault) t) :
    Returns (p >>= f) s postB := by
  obtain ⟨result, t, he, hr⟩ := h
  cases result with
  | ok a =>
    obtain ⟨result, last, hf, hq⟩ := hok a t hr
    exact ⟨result, last, (bind_ok he).trans hf, hq⟩
  | error fault => exact ⟨.error fault, t, bind_error he, herr fault t hr⟩

theorem returns_pure {a : α} (h : post (.ok a) s) : Returns (pure a) s post := ⟨_, _, rfl, h⟩

theorem returns_throw {fault : Fault} (h : post (.error fault) s) :
    Returns (throw fault) s post :=
  ⟨_, _, rfl, h⟩

theorem returns_peek {f : Option Char → Descent β} :
    Returns (peek >>= f) s postB ↔ Returns (f s.rest.head?) s postB := Iff.rfl

theorem returns_bump {f : Option Char → Descent β} :
    Returns (bump >>= f) s postB ↔
      Returns (f s.rest.head?) { s with rest := s.rest.tail } postB := Iff.rfl

theorem returns_place {f : List Char → Descent β} :
    Returns (place >>= f) s postB ↔ Returns (f s.rest) s postB := Iff.rfl

theorem returns_isVerbose {f : Bool → Descent β} :
    Returns (isVerbose >>= f) s postB ↔ Returns (f s.isVerbose) s postB := Iff.rfl

theorem returns_bind_ok {a : α} (h : p s = some (.ok a, t)) :
    Returns (p >>= f) s postB ↔ Returns (f a) t postB := by
  unfold Returns
  rw [bind_ok h]

end Returns

/-- What holds of every outcome: an end of the text is left, the depth is what it was and was in
bounds all the while, and flags for the whole pattern were added only. A result leaves flags in
scope that were there or that hold for the whole pattern too. -/
structure Orderly (s : Cursor) (result : Except Fault α) (t : Cursor) : Prop where
  suffix : t.rest <:+ s.rest
  depth : t.depth = s.depth
  deepest : s.depth ≤ Nesting.maxDepth → t.deepest ≤ max s.deepest Nesting.maxDepth
  global : t.global.has s.global = true
  scope : ∀ a, result = .ok a → ∃ added, t.scope = s.scope ∪ added ∧ t.global.has added = true

structure Took (s : Cursor) (result : Except Fault α) (t : Cursor) : Prop extends
    Orderly s result t where
  shorter : ∀ a, result = .ok a → s.rest ≠ [] → t.rest.length < s.rest.length

structure Ended (atEnd : Cursor → Prop) (s : Cursor) (result : Except Fault α) (t : Cursor) : Prop
    extends Orderly s result t where
  atEnd : ∀ a, result = .ok a → atEnd t

/-- Moreover a round that passes something on takes a character, and the last one leaves the
cursor at the end of the loop. -/
structure Rounded (atEnd : Cursor → Prop) (s : Cursor) (result : Except Fault (σ ⊕ α))
    (t : Cursor) : Prop extends Orderly s result t where
  shorter : ∀ x, result = .ok (.inl x) → t.rest.length < s.rest.length
  atEnd : ∀ a, result = .ok (.inr a) → atEnd t

/-- Where the cursor alone has moved, all is kept. -/
theorem Orderly.of_suffix {rest : List Char} (h : rest <:+ s.rest) (result : Except Fault α) :
    Orderly s result { s with rest := rest } where
  suffix := h
  depth := rfl
  deepest _ := Nat.le_max_left _ _
  global := by rw [Flags.has_iff_union, Flags.union_self]
  scope _ _ := ⟨∅, (Flags.union_empty _).symm, Flags.has_empty _⟩

theorem Orderly.refl (s : Cursor) (result : Except Fault α) : Orderly s result s :=
  .of_suffix List.suffix_rfl result

theorem Orderly.trans {a : α} {result : Except Fault β} (h : Orderly s (.ok a) t)
    (h' : Orderly t result u) : Orderly s result u where
  suffix := h'.suffix.trans h.suffix
  depth := h'.depth.trans h.depth
  deepest hd := by
    have ht := h.deepest hd
    have hu := h'.deepest (h.depth.symm ▸ hd)
    omega
  global := Flags.has_trans h'.global h.global
  scope b hb := by
    obtain ⟨added, hs, hg⟩ := h.scope a rfl
    obtain ⟨added', hs', hg'⟩ := h'.scope b hb
    refine ⟨added ∪ added', ?_, Flags.has_union (Flags.has_trans h'.global hg) hg'⟩
    rw [hs', hs, Flags.union_assoc]

/-- A fault is kept by whatever would follow. -/
theorem Orderly.fault {fault : Fault} (h : Orderly s (.error fault : Except Fault α) t) :
    Orderly s (.error fault : Except Fault β) t :=
  { h with scope := nofun }

def OrderlyTo (n : Nat) (p : Descent α) : Prop :=
  ∀ s, s.rest.length ≤ n → Returns p s (Orderly s)

theorem OrderlyTo.bind (h : OrderlyTo n p) (hf : ∀ a, OrderlyTo n (f a)) :
    OrderlyTo n (p >>= f) := by
  intro s hs
  refine (h s hs).bind (fun a t ht => ?_) fun fault t ht => ht.fault
  exact (hf a t (Nat.le_trans ht.suffix.length_le hs)).mono fun _ _ => ht.trans

theorem orderlyTo_pure (a : α) : OrderlyTo n (pure a : Descent α) := fun s _ =>
  returns_pure (.refl s _)

theorem orderlyTo_throw (fault : Fault) : OrderlyTo n (throw fault : Descent α) := fun s _ =>
  returns_throw (.refl s _)

theorem orderlyTo_peek : OrderlyTo n peek := fun s _ => ⟨_, s, rfl, .refl s _⟩

theorem orderlyTo_place : OrderlyTo n place := fun s _ => ⟨_, s, rfl, .refl s _⟩

theorem orderlyTo_bump : OrderlyTo n bump := fun _ _ =>
  ⟨_, _, rfl, .of_suffix (List.tail_suffix _) _⟩

section Loop

variable {round : σ → Descent (σ ⊕ α)} {atEnd : Cursor → Prop}

/-- Each round but the last takes a character, so there are enough rounds. -/
theorem ended_rounds (h : ∀ x t, t.rest.length ≤ n → Returns (round x) t (Rounded atEnd t))
    (x : σ) (hs : s.rest.length ≤ n) {count : Nat} (hc : s.rest.length < count) :
    Returns (rounds round count x) s (Ended atEnd s) := by
  induction count generalizing s x with
  | zero => exact absurd hc (Nat.not_lt_zero _)
  | succ count ih =>
    refine (h x s hs).bind (fun next t ht => ?_) fun fault t ht => ⟨ht.fault, nofun⟩
    cases next with
    | inl x =>
      have hlt := ht.shorter x rfl
      have hrest : t.rest.length < count := Nat.lt_of_lt_of_le hlt (Nat.le_of_lt_succ hc)
      exact (ih x (Nat.le_trans (Nat.le_of_lt hlt) hs) hrest).mono fun _ _ hr =>
        ⟨ht.trans hr.toOrderly, hr.atEnd⟩
    | inr a => exact returns_pure ⟨ht.trans (.refl t _), fun _ _ => ht.atEnd a rfl⟩

theorem ended_loop
    (h : ∀ x t, t.rest.length ≤ s.rest.length → Returns (round x) t (Rounded atEnd t)) (x : σ) :
    Returns (loop round x) s (Ended atEnd s) :=
  ended_rounds h x (Nat.le_refl _) (Nat.lt_succ_self _)

theorem orderlyTo_loop (h : ∀ x t, Returns (round x) t (Rounded (fun _ => True) t)) (x : σ) :
    OrderlyTo n (loop round x) := fun _ _ =>
  (ended_loop (fun x t _ => h x t) x).mono fun _ _ h => h.toOrderly

/-- A round that takes a character first. Without one it has to be the last. -/
theorem rounded_bump {f : Option Char → Descent (σ ⊕ α)}
    (hn : (∃ a, f none = pure (.inr a)) ∨ ∃ fault, f none = throw fault)
    (hc : ∀ n c, OrderlyTo n (f (some c))) :
    Returns (bump >>= f) s (Rounded (fun _ => True) s) := by
  rw [returns_bump]
  have step : Orderly s (.ok ()) { s with rest := s.rest.tail } := .of_suffix (List.tail_suffix _) _
  cases hr : s.rest with
  | nil =>
    rw [hr] at step
    rcases hn with ⟨a, ha⟩ | ⟨fault, hf⟩
    · exact ha ▸ returns_pure ⟨step.trans (.refl _ _), nofun, fun _ _ => trivial⟩
    · exact hf ▸ returns_throw ⟨step.trans (.refl _ _), nofun, fun _ _ => trivial⟩
  | cons c rest =>
    rw [hr] at step
    refine (hc rest.length c _ (Nat.le_refl _)).mono fun _ t ht =>
      ⟨step.trans ht, fun _ _ => ?_, fun _ _ => trivial⟩
    rw [hr]
    exact Nat.lt_succ_of_le ht.suffix.length_le

end Loop

theorem orderlyTo_eatIf (kind : Char → Bool) : OrderlyTo n (eatIf kind) := by
  refine orderlyTo_peek.bind fun c => ?_
  split
  · split
    · exact orderlyTo_bump
    · exact orderlyTo_pure _
  · exact orderlyTo_pure _

theorem orderlyTo_eat (c : Char) : OrderlyTo n (eat c) :=
  (orderlyTo_eatIf _).bind fun _ => orderlyTo_pure _

theorem orderlyTo_takeUpTo (kind : Char → Bool) (k : Nat) : OrderlyTo n (takeUpTo kind k) := by
  induction k with
  | zero => exact orderlyTo_pure _
  | succ k ih =>
    refine (orderlyTo_eatIf kind).bind fun c => ?_
    split
    · exact ih.bind fun _ => orderlyTo_pure _
    · exact orderlyTo_pure _

theorem orderlyTo_skipPast (stop : Char) : OrderlyTo n (skipPast stop) :=
  orderlyTo_loop (fun _ _ => rounded_bump (.inl ⟨_, rfl⟩) fun _ _ => orderlyTo_pure _) ()

theorem orderlyTo_expectClose (opened : List Char) : OrderlyTo n (expectClose opened) := by
  refine (orderlyTo_eat _).bind fun closed => ?_
  split
  · exact orderlyTo_pure _
  · exact orderlyTo_throw _

/-- A count or a sign takes a character. -/
theorem returns_quantifier (s : Cursor) : Returns quantifier s fun result t =>
    Orderly s result t ∧
      ∀ bounds, result = .ok (some bounds) → t.rest.length < s.rest.length := by
  have bumped {sign : Char} (hs : s.rest.head? = some sign) (bounds : UInt32 × Option UInt32) :
      Returns (bump >>= fun _ => pure (some bounds)) s fun result t => Orderly s result t ∧
        ∀ bounds, result = .ok (some bounds) → t.rest.length < s.rest.length := by
    obtain ⟨rest, hr⟩ := List.head?_eq_some_iff.mp hs
    refine returns_bump.mpr (returns_pure ⟨.of_suffix (List.tail_suffix _) _, fun _ _ => ?_⟩)
    simp [hr]
  rw [quantifier, returns_place, returns_peek]
  split
  case h_1 hs => exact bumped hs _
  case h_2 hs => exact bumped hs _
  case h_3 hs => exact bumped hs _
  case h_4 =>
    split
    case h_1 => exact returns_pure ⟨.refl s _, nofun⟩
    case h_2 n count hc =>
      have moved : s.rest.drop n <:+ s.rest := List.drop_suffix n s.rest
      rw [returns_bind_ok (bumps_eq n s)]
      split
      · refine returns_pure ⟨.of_suffix moved _, fun _ _ => ?_⟩
        cases hr : s.rest with
        | nil => rw [hr] at hc; cases hc
        | cons c text =>
          rw [hr] at hc
          exact Nat.lt_succ_of_le (Count.suffix_of_scan? hc).length_le
      · exact returns_throw ⟨.of_suffix moved _, nofun⟩

theorem orderlyTo_quantified (opened : List Char) (q : Quantifier) (items : List Token) :
    OrderlyTo n (quantified opened q items) := by
  unfold quantified
  split
  · exact orderlyTo_throw _
  · exact orderlyTo_throw _
  · exact orderlyTo_throw _
  · exact orderlyTo_pure _

theorem orderlyTo_octalCode (opened digits : List Char) :
    OrderlyTo n (octalCode opened digits) := by
  unfold octalCode
  split
  · exact orderlyTo_pure _
  · exact orderlyTo_throw _

theorem orderlyTo_octal (opened : List Char) (first : Char) : OrderlyTo n (octal opened first) :=
  (orderlyTo_takeUpTo _ _).bind fun _ => orderlyTo_octalCode _ _

theorem orderlyTo_hex (opened : List Char) (marker : Char) (size : Nat) :
    OrderlyTo n (hex opened marker size) := by
  refine (orderlyTo_takeUpTo _ _).bind fun digits => ?_
  split
  · exact orderlyTo_pure _
  · exact orderlyTo_throw _

theorem orderlyTo_simpleEscape (opened : List Char) (c : Char) :
    OrderlyTo n (simpleEscape opened c) := by
  unfold simpleEscape
  split
  · exact orderlyTo_pure _
  · exact orderlyTo_hex _ _ _
  · split
    · exact orderlyTo_throw _
    · exact orderlyTo_pure _

theorem orderlyTo_numbered (opened : List Char) (first : Char) :
    OrderlyTo n (numbered opened first) := by
  refine (orderlyTo_eatIf _).bind fun second => ?_
  split
  · exact orderlyTo_pure _
  · refine (orderlyTo_eatIf _).bind fun third => ?_
    split
    · exact orderlyTo_pure _
    · exact (orderlyTo_octalCode _ _).bind fun _ => orderlyTo_pure _

theorem orderlyTo_classEscape (opened : List Char) : OrderlyTo n (classEscape opened) := by
  refine orderlyTo_bump.bind fun c => ?_
  split
  · exact orderlyTo_throw _
  · split
    · exact orderlyTo_pure _
    · split
      · exact orderlyTo_pure _
      · split
        · exact (orderlyTo_octal _ _).bind fun _ => orderlyTo_pure _
        · exact (orderlyTo_simpleEscape _ _).bind fun _ => orderlyTo_pure _

theorem orderlyTo_single (start : List Char) (c : Char) : OrderlyTo n (single start c) := by
  unfold single
  split
  · exact orderlyTo_classEscape _
  · exact orderlyTo_pure _

theorem orderlyTo_rangeFollows : OrderlyTo n rangeFollows := fun s _ => ⟨_, s, rfl, .refl s _⟩

theorem orderlyTo_member (opened start : List Char) (c : Char) :
    OrderlyTo n (member opened start c) := by
  refine (orderlyTo_single _ _).bind fun item => ?_
  split
  · refine orderlyTo_rangeFollows.bind fun follows => ?_
    split
    · refine orderlyTo_bump.bind fun _ => orderlyTo_place.bind fun upper =>
        orderlyTo_bump.bind fun d => ?_
      split
      · exact orderlyTo_throw _
      · refine (orderlyTo_single _ _).bind fun hi => ?_
        split
        · split
          · exact orderlyTo_throw _
          · exact orderlyTo_pure _
        · exact orderlyTo_throw _
    · exact orderlyTo_pure _
  · exact orderlyTo_pure _

theorem rounded_nextMember (opened : List Char) (x : Bool × List Token) (s : Cursor) :
    Returns (nextMember opened x) s (Rounded (fun _ => True) s) := by
  refine returns_place.mpr (rounded_bump (.inr ⟨_, rfl⟩) fun _ c => ?_)
  dsimp only
  split
  · exact orderlyTo_pure _
  · exact (orderlyTo_member _ _ _).bind fun _ => orderlyTo_pure _

theorem rounded_nextOfName (terminator : Char) (start name : List Char) (s : Cursor) :
    Returns (nextOfName terminator start name) s (Rounded (fun _ => True) s) :=
  rounded_bump (.inr ⟨_, rfl⟩) fun _ _ => orderlyTo_pure _

theorem orderlyTo_groupName (terminator : Char) : OrderlyTo n (groupName terminator) := by
  refine orderlyTo_place.bind fun start =>
    (orderlyTo_loop (rounded_nextOfName terminator start) []).bind fun name => ?_
  split
  · exact orderlyTo_pure _
  · exact orderlyTo_throw _

theorem rounded_nextLetter (opened : List Char) (x : Flags × Option Flags) (s : Cursor) :
    Returns (nextLetter opened x) s (Rounded (fun _ => True) s) := by
  refine rounded_bump (.inr ⟨_, rfl⟩) fun _ c => ?_
  dsimp only
  split
  · exact orderlyTo_pure _
  · split
    · exact orderlyTo_pure _
    · split
      · exact orderlyTo_pure _
      · split
        · exact orderlyTo_place.bind fun _ => orderlyTo_throw _
        · exact orderlyTo_pure _
        · exact orderlyTo_pure _

/-- What takes a character first, and is orderly in what is left, takes one. -/
theorem took_bump {f : Option Char → Descent β} (h : ∀ c, OrderlyTo s.rest.tail.length (f c)) :
    Returns (bump >>= f) s (Took s) := by
  have step : Orderly s (.ok ()) { s with rest := s.rest.tail } := .of_suffix (List.tail_suffix _) _
  refine returns_bump.mpr ((h _ _ (Nat.le_refl _)).mono fun result t ht => ⟨step.trans ht, ?_⟩)
  intro a _ hs
  have hl : t.rest.length ≤ s.rest.tail.length := ht.suffix.length_le
  have := List.length_pos_iff.mpr hs
  rw [List.length_tail] at hl
  omega

/-- A loop takes a character if its first round does. -/
theorem took_loop {round : σ → Descent (σ ⊕ α)} {x : σ} (hx : Returns (round x) s (Took s))
    (h : ∀ x t, Returns (round x) t (Rounded (fun _ => True) t)) :
    Returns (loop round x) s (Took s) := by
  obtain ⟨result, t, he, took⟩ := hx
  have rounded := (h x s).of_eq he
  cases result with
  | error fault => exact ⟨_, t, bind_error he, took.fault, nofun⟩
  | ok next =>
    cases next with
    | inl y =>
      obtain ⟨result, last, hl, ended⟩ :=
        ended_rounds (fun x t _ => h x t) y (Nat.le_refl _) (rounded.shorter y rfl)
      exact ⟨result, last, (bind_ok he).trans hl, took.trans ended.toOrderly, fun _ _ hn =>
        Nat.lt_of_le_of_lt ended.suffix.length_le (took.shorter _ rfl hn)⟩
    | inr a =>
      exact ⟨.ok a, t, bind_ok he, took.trans (.refl t _), fun _ _ => took.shorter _ rfl⟩

theorem took_skipPast (stop : Char) (s : Cursor) : Returns (skipPast stop) s (Took s) :=
  took_loop (took_bump fun c => by cases c <;> exact orderlyTo_pure _)
    fun _ _ => rounded_bump (.inl ⟨_, rfl⟩) fun _ _ => orderlyTo_pure _

theorem took_quantify (items : List Token) (s : Cursor) : Returns (quantify items) s (Took s) := by
  rw [quantify, returns_place]
  refine (returns_quantifier s).bind (fun bounds t ht => ?_) fun _ _ ht => ⟨ht.1.fault, nofun⟩
  cases bounds with
  | none =>
    -- a brace that starts no count: it is there to be taken
    refine returns_bump.mpr (returns_pure ⟨ht.1.trans (.of_suffix (List.tail_suffix _) _), ?_⟩)
    intro _ _ hn
    have hl := ht.1.suffix.length_le
    have hp := List.length_pos_iff.mpr hn
    show t.rest.tail.length < s.rest.length
    rw [List.length_tail]
    omega
  | some bounds =>
    refine (orderlyTo_eat '?' t (Nat.le_refl _)).bind (fun isLazy u hu => ?_)
      fun _ _ hu => ⟨(ht.1.trans hu).fault, nofun⟩
    refine (orderlyTo_quantified _ _ _ u (Nat.le_refl _)).mono fun _ v hv => ?_
    have hv' := hu.trans hv
    exact ⟨ht.1.trans hv', fun _ _ _ =>
      Nat.lt_of_le_of_lt hv'.suffix.length_le (ht.2 bounds rfl)⟩

theorem took_escape (s : Cursor) : Returns escape s (Took s) := by
  rw [escape, returns_place]
  refine took_bump fun _ => orderlyTo_bump.bind fun c => ?_
  split
  · exact orderlyTo_throw _
  · split
    · exact orderlyTo_pure _
    · exact orderlyTo_pure _
    · split
      · exact (orderlyTo_octal _ _).bind fun _ => orderlyTo_pure _
      · split
        · exact orderlyTo_numbered _ _
        · exact (orderlyTo_simpleEscape _ _).bind fun _ => orderlyTo_pure _

theorem took_charClass (s : Cursor) : Returns charClass s (Took s) := by
  rw [charClass, returns_place]
  exact took_bump fun _ => (orderlyTo_eat _).bind fun negated =>
    (orderlyTo_loop (rounded_nextMember _) _).bind fun _ => orderlyTo_pure _

section Groups

variable {inner : Descent (List Token)}

theorem orderlyTo_content (h : OrderlyTo n inner) (opened : List Char) :
    OrderlyTo n (content inner opened) :=
  h.bind fun _ => (orderlyTo_expectClose _).bind fun _ => orderlyTo_pure _

theorem orderlyTo_lookaround (h : OrderlyTo n inner) (opened : List Char)
    (ahead negative : Bool) : OrderlyTo n (lookaround inner opened ahead negative) :=
  (orderlyTo_content h _).bind fun _ => orderlyTo_pure _

/-- The flags are given back whatever becomes of the content. -/
theorem orderlyTo_flagged (h : OrderlyTo n inner) (added removed : Flags) :
    OrderlyTo n (flagged inner added removed) := by
  intro s hs
  obtain ⟨result, last, he, ho⟩ := h { s with scope := (s.scope ∪ added) \ removed } hs
  refine ⟨result, { last with scope := s.scope }, by rw [flagged, he]; rfl, ?_⟩
  exact {
    suffix := ho.suffix
    depth := ho.depth
    deepest := ho.deepest
    global := ho.global
    scope _ _ := ⟨∅, (Flags.union_empty _).symm, Flags.has_empty _⟩ }

theorem orderlyTo_addFlags (added : Flags) :
    OrderlyTo n (modify fun s => s.addFlags added : Descent Unit) := fun s _ =>
  ⟨.ok (), s.addFlags added, rfl, {
    suffix := List.suffix_rfl
    depth := rfl
    deepest _ := Nat.le_max_left _ _
    global := Flags.has_union_left _ _
    scope _ _ := ⟨added, rfl, Flags.has_union_right _ _⟩ }⟩

theorem orderlyTo_flagGroup (h : OrderlyTo n inner) (opened : List Char) :
    OrderlyTo n (flagGroup inner opened) := by
  refine (orderlyTo_loop (rounded_nextLetter _) _).bind fun letters => ?_
  split
  · exact (orderlyTo_addFlags _).bind fun _ => orderlyTo_pure _
  · exact (orderlyTo_flagged h _ _).bind fun _ => (orderlyTo_expectClose _).bind fun _ =>
      orderlyTo_pure _

theorem orderlyTo_extension (h : OrderlyTo n inner) (opened : List Char) :
    OrderlyTo n (extension inner opened) := by
  have grouped :
      OrderlyTo n (content inner opened >>= fun items => pure (some (Token.group items))) :=
    (orderlyTo_content h opened).bind fun _ => orderlyTo_pure _
  refine orderlyTo_peek.bind fun kind => ?_
  split
  · exact orderlyTo_place.bind fun _ => orderlyTo_throw _
  · exact orderlyTo_bump.bind fun _ => grouped
  · refine orderlyTo_bump.bind fun _ => (orderlyTo_eat _).bind fun named => ?_
    split
    · exact (orderlyTo_groupName _).bind fun _ => grouped
    · refine (orderlyTo_eat _).bind fun reference => ?_
      split
      · exact (orderlyTo_groupName _).bind fun _ => orderlyTo_pure _
      · exact orderlyTo_place.bind fun _ => orderlyTo_throw _
  · exact orderlyTo_bump.bind fun _ => orderlyTo_lookaround h _ _ _
  · exact orderlyTo_bump.bind fun _ => orderlyTo_lookaround h _ _ _
  · refine orderlyTo_bump.bind fun _ => orderlyTo_bump.bind fun direction => ?_
    split
    · exact orderlyTo_lookaround h _ _ _
    · exact orderlyTo_lookaround h _ _ _
    · exact orderlyTo_throw _
  · refine (orderlyTo_skipPast _).bind fun closed => ?_
    split
    · exact orderlyTo_pure _
    · exact orderlyTo_throw _
  · exact orderlyTo_bump.bind fun _ => (orderlyTo_groupName _).bind fun _ =>
      (orderlyTo_content h _).bind fun _ => orderlyTo_pure _
  · split
    · exact orderlyTo_flagGroup h _
    · exact orderlyTo_place.bind fun _ => orderlyTo_throw _

theorem took_groupBody (h : OrderlyTo s.rest.tail.length inner) :
    Returns (groupBody inner) s (Took s) := by
  rw [groupBody, returns_place]
  refine took_bump fun _ => (orderlyTo_eat _).bind fun header => ?_
  split
  · exact orderlyTo_extension h _
  · exact (orderlyTo_content h _).bind fun _ => orderlyTo_pure _

/-- A group is read only if there is room for one more, and the depth is what it was then. -/
theorem took_group (h : OrderlyTo s.rest.tail.length inner) :
    Returns (group inner) s (Took s) := by
  by_cases hd : s.depth = Nesting.maxDepth
  · exact ⟨.error ⟨.tooDeep, s.rest⟩, s, by rw [group, if_pos hd], .refl s _, nofun⟩
  · obtain ⟨result, last, he, ho⟩ := took_groupBody (s := s.deeper) h
    refine ⟨result, last.shallower, by rw [group, if_neg hd, he]; rfl, ?_⟩
    have hlast : last.depth = s.depth + 1 := ho.depth
    exact {
      suffix := ho.suffix
      depth := by
        show last.depth - 1 = s.depth
        omega
      deepest hs := by
        have hroom : s.deeper.depth ≤ Nesting.maxDepth := Nat.lt_of_le_of_ne hs hd
        have hl : last.deepest ≤ max (max s.deepest (s.depth + 1)) Nesting.maxDepth :=
          ho.deepest hroom
        show last.deepest ≤ _
        omega
      global := ho.global
      scope := ho.scope
      shorter := ho.shorter }

theorem took_atom (h : OrderlyTo s.rest.tail.length inner) : Returns (atom inner) s (Took s) := by
  have some_of {p : Descent Token} (hp : Returns p s (Took s)) :
      Returns (p >>= fun token => pure (some token)) s (Took s) :=
    hp.bind (fun token t ht => returns_pure ⟨ht.trans (.refl t _), fun _ _ => ht.shorter _ rfl⟩)
      fun fault t ht => ⟨ht.fault, nofun⟩
  rw [atom, returns_peek]
  split
  case h_1 hs =>
    exact returns_pure ⟨.refl s _, fun _ _ hn => absurd (List.head?_eq_none_iff.mp hs) hn⟩
  case h_2 => exact took_group h
  case h_3 => exact some_of (took_charClass s)
  case h_4 => exact some_of (took_escape s)
  case h_5 => exact took_bump fun _ => orderlyTo_pure _

/-- What takes a character and then passes something on. -/
theorem rounded_of_took {atEnd : Cursor → Prop} {g : α → Descent (σ ⊕ β)}
    (h : Returns p s (Took s)) (hs : s.rest ≠ []) (hg : ∀ a, ∃ x, g a = pure (.inl x)) :
    Returns (p >>= g) s (Rounded atEnd s) := by
  refine h.bind (fun a t ht => ?_) fun fault t ht => ⟨ht.fault, nofun, nofun⟩
  obtain ⟨x, hx⟩ := hg a
  rw [hx]
  exact returns_pure ⟨ht.trans (.refl t _), fun _ _ => ht.shorter a rfl hs, nofun⟩

/-- A row goes on behind a character and ends at a bar, at a closing parenthesis or at the end. -/
theorem rounded_nextItem (h : s.rest ≠ [] → Returns (atom inner) s (Took s)) (items : List Token) :
    Returns (nextItem inner items) s (Rounded (Cursor.StopsAt ['|', ')']) s) := by
  rw [nextItem, returns_peek]
  cases hr : s.rest with
  | nil => exact returns_pure ⟨.refl s _, nofun, fun _ _ => by simp [Cursor.StopsAt, hr]⟩
  | cons c rest =>
    have hne : s.rest ≠ [] := by simp [hr]
    rw [List.head?_cons, returns_isVerbose]
    split
    case isTrue =>
      have bumped : Returns bump s (Took s) := took_bump (f := pure) fun _ => orderlyTo_pure _
      exact rounded_of_took bumped hne fun _ => ⟨_, rfl⟩
    case isFalse =>
      rw [returns_isVerbose]
      split
      case isTrue => exact rounded_of_took (took_skipPast _ s) hne fun _ => ⟨_, rfl⟩
      case isFalse =>
        split
        case isTrue hc =>
          exact returns_pure ⟨.refl s _, nofun, fun _ _ => by simpa [Cursor.StopsAt, hr] using hc⟩
        case isFalse =>
          split
          case isTrue => exact rounded_of_took (took_quantify items s) hne fun _ => ⟨_, rfl⟩
          case isFalse =>
            refine rounded_of_took (h hne) hne fun token => ?_
            cases token with
            | none => exact ⟨_, rfl⟩
            | some token => exact ⟨_, rfl⟩

theorem ended_sequence_of
    (h : ∀ t : Cursor, t.rest ≠ [] → t.rest.length ≤ s.rest.length →
      Returns (atom inner) t (Took t)) :
    Returns (sequence inner) s (Ended (Cursor.StopsAt ['|', ')']) s) :=
  ended_loop (fun items t ht => rounded_nextItem (fun hn => h t hn ht) items) []

/-- A bar is taken, so the last branch does not stop at one. -/
theorem rounded_nextBranch (h : Returns (sequence inner) s (Ended (Cursor.StopsAt ['|', ')']) s))
    (branches : List (List Token)) :
    Returns (nextBranch inner branches) s (Rounded (Cursor.StopsAt [')']) s) := by
  refine h.bind (fun branch t ht => ?_) fun fault t ht => ⟨ht.fault, nofun, nofun⟩
  by_cases hbar : t.rest.head? = some '|'
  · obtain ⟨rest, hr⟩ := List.head?_eq_some_iff.mp hbar
    rw [returns_bind_ok (eat_of_cons hr)]
    have taken : rest <:+ t.rest := hr ▸ List.suffix_cons _ _
    refine returns_pure ⟨ht.trans (.of_suffix taken _), fun _ _ => ?_, nofun⟩
    have hle := ht.suffix.length_le
    rw [hr] at hle
    exact hle
  · rw [returns_bind_ok (eat_of_ne hbar)]
    refine returns_pure ⟨ht.trans (.refl t _), nofun, fun _ _ c hc => ?_⟩
    rcases List.mem_cons.mp (ht.atEnd branch rfl c hc) with rfl | hc'
    · exact absurd hc hbar
    · exact hc'

end Groups

/-- The content of a group is shorter than the group, so the calls in one another are bounded. -/
theorem ended_alternation {calls : Nat} (hs : s.rest.length < calls) :
    Returns (alternation calls) s (Ended (Cursor.StopsAt [')']) s) := by
  induction calls generalizing s with
  | zero => exact absurd hs (Nat.not_lt_zero _)
  | succ calls ih =>
    have orderly (n : Nat) (hn : n < calls) : OrderlyTo n (alternation calls) := fun t ht =>
      (ih (Nat.lt_of_le_of_lt ht hn)).mono fun _ _ h => h.toOrderly
    have took (t : Cursor) (hn : t.rest ≠ []) (ht : t.rest.length ≤ s.rest.length) :
        Returns (atom (alternation calls)) t (Took t) := by
      refine took_atom (orderly _ ?_)
      have := List.length_pos_iff.mpr hn
      rw [List.length_tail]
      omega
    exact ended_loop (fun branches t ht => rounded_nextBranch
      (ended_sequence_of fun u hn hu => took u hn (Nat.le_trans hu ht)) branches) []

/-- Beyond enough calls for the text that is left their number makes no difference. -/
theorem alternation_eq_of_le {calls more : Nat} (hs : s.rest.length < calls) (hm : calls ≤ more) :
    alternation more s = alternation calls s := by
  obtain ⟨result, t, he, -⟩ := ended_alternation hs
  rw [he]
  exact alternation_includedIn hm s _ he

theorem orderlyTo_alternation {calls : Nat} (hn : n < calls) : OrderlyTo n (alternation calls) :=
  fun _ hs => (ended_alternation (Nat.lt_of_le_of_lt hs hn)).mono fun _ _ h => h.toOrderly

/-- Enough calls for the text that is left are enough for the groups in it. -/
theorem orderlyTo_inner {calls : Nat} (hs : s.rest.length < calls) :
    OrderlyTo s.rest.tail.length (alternation calls) :=
  orderlyTo_alternation (Nat.lt_of_le_of_lt (List.tail_suffix _).length_le hs)

theorem ended_sequence {calls : Nat} (hs : s.rest.length < calls) :
    Returns (sequence (alternation calls)) s (Ended (Cursor.StopsAt ['|', ')']) s) :=
  ended_sequence_of fun _ _ ht => took_atom (orderlyTo_inner (Nat.lt_of_le_of_lt ht hs))

/-- The readers for a part of a pattern, those of rounds among them, with so many calls for what is
in groups. -/
inductive IsReader (calls : Nat) : {α : Type} → Descent α → Prop
  | expectClose (opened : List Char) : IsReader calls (expectClose opened)
  | skipPast (stop : Char) : IsReader calls (skipPast stop)
  | quantifier : IsReader calls quantifier
  | quantify (items : List Token) : IsReader calls (quantify items)
  | octal (opened : List Char) (first : Char) : IsReader calls (octal opened first)
  | hex (opened : List Char) (marker : Char) (size : Nat) : IsReader calls (hex opened marker size)
  | simpleEscape (opened : List Char) (c : Char) : IsReader calls (simpleEscape opened c)
  | numbered (opened : List Char) (first : Char) : IsReader calls (numbered opened first)
  | escape : IsReader calls escape
  | classEscape (opened : List Char) : IsReader calls (classEscape opened)
  | member (opened start : List Char) (c : Char) : IsReader calls (member opened start c)
  | nextMember (opened : List Char) (x : Bool × List Token) : IsReader calls (nextMember opened x)
  | charClass : IsReader calls charClass
  | nextOfName (terminator : Char) (start name : List Char) :
      IsReader calls (nextOfName terminator start name)
  | groupName (terminator : Char) : IsReader calls (groupName terminator)
  | nextLetter (opened : List Char) (x : Flags × Option Flags) :
      IsReader calls (nextLetter opened x)
  | flagGroup (opened : List Char) : IsReader calls (flagGroup (alternation calls) opened)
  | flagged (added removed : Flags) : IsReader calls (flagged (alternation calls) added removed)
  | lookaround (opened : List Char) (ahead negative : Bool) :
      IsReader calls (lookaround (alternation calls) opened ahead negative)
  | content (opened : List Char) : IsReader calls (content (alternation calls) opened)
  | extension (opened : List Char) : IsReader calls (extension (alternation calls) opened)
  | groupBody : IsReader calls (groupBody (alternation calls))
  | group : IsReader calls (group (alternation calls))
  | atom : IsReader calls (atom (alternation calls))
  | nextItem (items : List Token) : IsReader calls (nextItem (alternation calls) items)
  | sequence : IsReader calls (sequence (alternation calls))
  | nextBranch (branches : List (List Token)) :
      IsReader calls (nextBranch (alternation calls) branches)
  | alternation : IsReader calls (alternation calls)

theorem orderly_of_isReader {calls : Nat} (h : IsReader calls p) (hs : s.rest.length < calls) :
    Returns p s (Orderly s) := by
  have inner : OrderlyTo s.rest.length (alternation calls) := orderlyTo_alternation hs
  have all {α : Type} {p : Descent α} (hp : OrderlyTo s.rest.length p) : Returns p s (Orderly s) :=
    hp s (Nat.le_refl _)
  have took : Returns (Descent.atom (alternation calls)) s (Took s) :=
    took_atom (orderlyTo_inner hs)
  cases h with
  | expectClose => exact all (orderlyTo_expectClose _)
  | skipPast => exact all (orderlyTo_skipPast _)
  | quantifier => exact (returns_quantifier s).mono fun _ _ h => h.1
  | quantify items => exact (took_quantify items s).mono fun _ _ h => h.toOrderly
  | octal => exact all (orderlyTo_octal _ _)
  | hex => exact all (orderlyTo_hex _ _ _)
  | simpleEscape => exact all (orderlyTo_simpleEscape _ _)
  | numbered => exact all (orderlyTo_numbered _ _)
  | escape => exact (took_escape s).mono fun _ _ h => h.toOrderly
  | classEscape => exact all (orderlyTo_classEscape _)
  | member => exact all (orderlyTo_member _ _ _)
  | nextMember => exact (rounded_nextMember _ _ s).mono fun _ _ h => h.toOrderly
  | charClass => exact (took_charClass s).mono fun _ _ h => h.toOrderly
  | nextOfName => exact (rounded_nextOfName _ _ _ s).mono fun _ _ h => h.toOrderly
  | groupName => exact all (orderlyTo_groupName _)
  | nextLetter => exact (rounded_nextLetter _ _ s).mono fun _ _ h => h.toOrderly
  | flagGroup => exact all (orderlyTo_flagGroup inner _)
  | flagged => exact all (orderlyTo_flagged inner _ _)
  | lookaround => exact all (orderlyTo_lookaround inner _ _ _)
  | content => exact all (orderlyTo_content inner _)
  | extension => exact all (orderlyTo_extension inner _)
  | groupBody => exact (took_groupBody (orderlyTo_inner hs)).mono fun _ _ h => h.toOrderly
  | group => exact (took_group (orderlyTo_inner hs)).mono fun _ _ h => h.toOrderly
  | atom => exact took.mono fun _ _ h => h.toOrderly
  | nextItem items => exact (rounded_nextItem (fun _ => took) items).mono fun _ _ h => h.toOrderly
  | sequence => exact (ended_sequence hs).mono fun _ _ h => h.toOrderly
  | nextBranch branches =>
    exact (rounded_nextBranch (ended_sequence hs) branches).mono fun _ _ h => h.toOrderly
  | alternation => exact all inner

end Descent

end RegexTypeset
