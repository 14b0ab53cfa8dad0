import RegexTypeset.Proofs.DescentLexemes
import RegexTypeset.Proofs.ReadingSteps

/-! # Descent and nesting

A descent through the groups of a text goes along with the reading that keeps the open groups in
a nesting. At each cursor the reading of what is left ends as it does from the cursor where a
reader stops, with the result of that reader put into the nesting; a fault of the reader is the
fault of the reading. So both read every pattern alike.
-/
namespace RegexTypeset

namespace Nesting

variable {n : Nesting} {c : Char} {rest : List Char}

def conclude (n : Nesting) (text : List Char) : Except Fault (List Token × Flags) :=
  match n.read text with
  | .error fault => .error fault
  | .ok m => m.finish.map fun tokens => (tokens, m.global)

def proceed (n : Nesting) (place : List Char) (read : Except Fault (Lexeme × List Char)) :
    Except Fault (List Token × Flags) :=
  read.bind fun (lexeme, after) => (n.push place lexeme).bind fun m => m.conclude after

theorem conclude_cons (hd : c = '(' → n.depth < maxDepth) :
    n.conclude (c :: rest) = n.proceed (c :: rest) (Lexeme.read n.isVerbose c rest) := by
  have hroom : ¬ (c = '(' ∧ maxDepth ≤ n.depth) := fun h => Nat.not_le_of_lt (hd h.1) h.2
  unfold proceed conclude
  rw [read_cons, if_neg hroom]
  cases Lexeme.read n.isVerbose c rest with
  | error fault => rfl
  | ok out =>
    cases hp : n.push (c :: rest) out.1 with
    | error fault => simp only [hp, Except.bind]
    | ok m => simp only [hp, Except.bind]

theorem conclude_tooDeep (hd : maxDepth ≤ n.depth) :
    n.conclude ('(' :: rest) = .error ⟨.tooDeep, '(' :: rest⟩ := by
  unfold conclude
  rw [read_cons, if_pos ⟨rfl, hd⟩]

theorem conclude_bar : n.conclude ('|' :: rest) =
    ({ n with current := n.current.split } : Nesting).conclude rest := by
  unfold conclude
  rw [read_bar]

theorem conclude_closing {group : OpenGroup} {groups : List OpenGroup}
    (hg : n.groups = group :: groups) : n.conclude (')' :: rest) = ({ n with
      scope := group.kind.after group.outer n.scope
      current := group.around.add (group.kind.token n.current.tokens)
      groups := groups } : Nesting).conclude rest := by
  unfold conclude
  rw [read_closing hg]

theorem conclude_unbalanced (hg : n.groups = []) :
    n.conclude (')' :: rest) = .error ⟨.unbalancedParenthesis, ')' :: rest⟩ := by
  have hl : Lexeme.read n.isVerbose ')' rest = .ok (.closing, rest) := by
    cases n.isVerbose <;> rfl
  rw [conclude_cons fun he => absurd he (by decide), hl]
  simp only [proceed, Except.bind, push, closeGroup?, hg]

/-- The end of a group needs the tokens of its content only. -/
theorem conclude_congr {current : Alternatives} (ht : current.tokens = n.current.tokens)
    {text : List Char} (hs : ∀ c ∈ text.head?, c = ')') :
    ({ n with current := current } : Nesting).conclude text = n.conclude text := by
  cases text with
  | nil =>
    unfold conclude
    rw [read_nil, read_nil]
    cases hg : n.groups <;> simp [finish, hg, ht]
  | cons c rest =>
    obtain rfl := hs c rfl
    cases hg : n.groups with
    | nil => rw [conclude_unbalanced hg, conclude_unbalanced rfl]
    | cons group groups => rw [conclude_closing hg, conclude_closing rfl, ht]

end Nesting

theorem Pattern.readOnce_eq_conclude (text : List Char) (flags : Flags) :
    readOnce text flags = (Nesting.start flags).conclude text := by
  unfold readOnce Nesting.conclude
  cases (Nesting.start flags).read text with
  | error fault => rfl
  | ok n => cases hf : n.finish <;> simp [hf, Except.map]

/-- The nesting at a cursor, with what was read up to there. -/
def Cursor.within (s : Cursor) (current : Alternatives) (groups : List OpenGroup) : Nesting :=
  ⟨s.scope, s.global, current, groups⟩

def Alternatives.addOption (a : Alternatives) : Option Token → Alternatives
  | none => a
  | some token => a.add token

namespace Descent

variable {σ α β : Type} {s t : Cursor} {p : Descent α} {f : α → Descent β} {n : Nat}
  {rest text opened : List Char} {current : Alternatives} {groups : List OpenGroup}
  {inner : Descent (List Token)}

abbrev Outcome := Except Fault (List Token × Flags)

abbrev afterItem (current : Alternatives) (groups : List OpenGroup) (item : Option Token)
    (t : Cursor) : Outcome :=
  (t.within (current.addOption item) groups).conclude t.rest

abbrev afterRow (branches : List (List Token)) (groups : List OpenGroup) (items : List Token)
    (t : Cursor) : Outcome :=
  (t.within ⟨branches, items⟩ groups).conclude t.rest

/-- The reader ends. The outcome is its fault, or what follows from its result and cursor. -/
def Leads (p : Descent α) (s : Cursor) (outcome : Outcome) (next : α → Cursor → Outcome) : Prop :=
  Returns p s fun result t => outcome = result.bind fun a => next a t

section Leads

variable {outcome : Outcome} {next : α → Cursor → Outcome} {nextB : β → Cursor → Outcome}

theorem leads_pure {a : α} (h : outcome = next a s) : Leads (pure a) s outcome next :=
  returns_pure h

theorem leads_throw {fault : Fault} (h : outcome = .error fault) :
    Leads (throw fault) s outcome next :=
  returns_throw h

theorem Leads.bind (h : Leads p s outcome next)
    (hf : ∀ a t, p s = some (.ok a, t) → Leads (f a) t (next a t) nextB) :
    Leads (p >>= f) s outcome nextB := by
  obtain ⟨result, t, hp, rfl⟩ := h
  cases result with
  | ok a =>
    obtain ⟨result, last, hl, hn⟩ := hf a t hp
    exact ⟨result, last, (bind_ok hp).trans hl, hn⟩
  | error fault => exact ⟨.error fault, t, bind_error hp, rfl⟩

/-- A reader of characters first. -/
theorem Mirrors.leads {read : Except Fault (α × List Char)} (h : Mirrors p s read)
    (herr : ∀ fault, read = .error fault → outcome = .error fault)
    (hok : ∀ a rest, read = .ok (a, rest) → Leads (f a) { s with rest := rest } outcome nextB) :
    Leads (p >>= f) s outcome nextB := by
  obtain ⟨result, rest, hp, rfl⟩ := h
  cases result with
  | ok a =>
    obtain ⟨result, last, hl, hn⟩ := hok a rest rfl
    exact ⟨result, last, (bind_ok hp).trans hl, hn⟩
  | error fault => exact ⟨.error fault, _, bind_error hp, herr fault rfl⟩

theorem Mirrors.ok_leads {a : α} (h : Mirrors p s (.ok (a, rest)))
    (hf : Leads (f a) { s with rest := rest } outcome nextB) : Leads (p >>= f) s outcome nextB :=
  h.leads (fun _ he => by cases he) fun _ _ he => by cases he; exact hf

theorem Leads.place_bind {f : List Char → Descent β} (hf : Leads (f s.rest) s outcome nextB) :
    Leads (place >>= f) s outcome nextB := hf

theorem Leads.isVerbose_bind {f : Bool → Descent β} (hf : Leads (f s.isVerbose) s outcome nextB) :
    Leads (isVerbose >>= f) s outcome nextB := hf

theorem Leads.peek_bind {f : Option Char → Descent β}
    (hf : Leads (f s.rest.head?) s outcome nextB) : Leads (peek >>= f) s outcome nextB := hf

end Leads

section Loop

variable {round : σ → Descent (σ ⊕ α)} {atEnd : Cursor → Prop} {outcome : σ → Cursor → Outcome}
  {next : α → Cursor → Outcome}

/-- Rounds go along if each leads to where the next one starts. -/
theorem leads_rounds
    (hl : ∀ x t, t.rest.length ≤ n → t.depth = s.depth →
      Leads (round x) t (outcome x t) (Sum.elim outcome next))
    (hr : ∀ x t, t.rest.length ≤ n → Returns (round x) t (Rounded atEnd t))
    (x : σ) (hs : t.rest.length ≤ n) (hd : t.depth = s.depth) {count : Nat}
    (hc : t.rest.length < count) : Leads (rounds round count x) t (outcome x t) next := by
  induction count generalizing t x with
  | zero => exact absurd hc (Nat.not_lt_zero _)
  | succ count ih =>
    refine (hl x t hs hd).bind fun more u hu => ?_
    have rounded := (hr x t hs).of_eq hu
    cases more with
    | inl y =>
      have hlt := rounded.shorter y rfl
      exact ih y (Nat.le_trans (Nat.le_of_lt hlt) hs) (rounded.depth.trans hd)
        (Nat.lt_of_lt_of_le hlt (Nat.le_of_lt_succ hc))
    | inr a => exact leads_pure rfl

theorem leads_loop (outcome : σ → Cursor → Outcome)
    (hl : ∀ x t, t.rest.length ≤ s.rest.length → t.depth = s.depth →
      Leads (round x) t (outcome x t) (Sum.elim outcome next))
    (hr : ∀ x t, t.rest.length ≤ s.rest.length → Returns (round x) t (Rounded atEnd t))
    (x : σ) : Leads (loop round x) s (outcome x s) next :=
  leads_rounds hl hr x (Nat.le_refl _) rfl (Nat.lt_succ_self _)

end Loop

/-- The alternatives in front of a cursor, with at most so much text left, are those that the
innermost group gets. -/
structure AgreesTo (n : Nat) (inner : Descent (List Token)) : Prop where
  ended : ∀ s : Cursor, s.rest.length ≤ n → Returns inner s (Ended (Cursor.StopsAt [')']) s)
  leads : ∀ (s : Cursor) (groups : List OpenGroup), s.rest.length ≤ n →
    s.depth ≤ Nesting.maxDepth → groups.length = s.depth →
    Leads inner s ((s.within .empty groups).conclude s.rest) fun items =>
      afterRow [] groups items.reverse

/-- A closing parenthesis puts the group into what was read around it. -/
theorem leads_expectClose (kind : GroupKind) (outer inner : Flags) (items : List Token)
    (current : Alternatives) (groups : List OpenGroup)
    (hstop : s.StopsAt [')']) (ha : kind.after outer inner = s.scope) :
    Leads (expectClose opened) s
      ((⟨inner, s.global, ⟨[], items.reverse⟩, ⟨kind, opened, outer, current⟩ :: groups⟩ :
        Nesting).conclude s.rest)
      fun _ t => (t.within (current.add (kind.token items)) groups).conclude t.rest := by
  have tokens_eq : Alternatives.tokens ⟨[], items.reverse⟩ = items := by simp [Alternatives.tokens]
  cases hr : s.rest with
  | nil =>
    refine (mirrors_eat_of_ne (by simp [hr])).ok_leads (leads_throw ?_)
    simp [Nesting.conclude, Nesting.finish, Except.map]
  | cons c rest =>
    obtain rfl : c = ')' := by simpa [Cursor.StopsAt, hr] using hstop
    refine (mirrors_eat ')' hr).ok_leads (leads_pure ?_)
    rw [Nesting.conclude_closing rfl, ha, tokens_eq]
    rfl

/-- The content of a group that sets no flags of its own. -/
theorem leads_content (h : AgreesTo n inner) (hs : s.rest.length ≤ n)
    (hd : s.depth ≤ Nesting.maxDepth) (hg : groups.length + 1 = s.depth) (kind : GroupKind)
    (hi : kind.inner s.scope = s.scope)
    (ha : ∀ last, kind.after s.scope last = last) :
    Leads (content inner opened >>= fun items => pure (some (kind.token items))) s
      (((s.within current groups).openGroup opened kind).conclude s.rest)
      (afterItem current groups) := by
  have opened_eq : (s.within current groups).openGroup opened kind =
      s.within .empty (⟨kind, opened, s.scope, current⟩ :: groups) := by
    simp only [Nesting.openGroup, Cursor.within, hi]
  rw [content, bind_assoc, opened_eq]
  refine (h.leads s (_ :: groups) hs hd hg).bind fun items t ht => ?_
  have hstop := ((h.ended s hs).of_eq ht).atEnd items rfl
  rw [bind_assoc]
  exact (leads_expectClose kind s.scope t.scope items current groups hstop (ha _)).bind
    fun _ u _ => leads_pure rfl

/-- The content of a group that sets flags of its own, and its closing parenthesis. -/
theorem leads_flagged (h : AgreesTo n inner) (hs : s.rest.length ≤ n)
    (hd : s.depth ≤ Nesting.maxDepth) (hg : groups.length + 1 = s.depth) (added removed : Flags) :
    Leads (flagged inner added removed >>= fun items =>
        expectClose opened >>= fun _ => pure (some (.group items))) s
      (((s.within current groups).openGroup opened (.flagged added removed)).conclude s.rest)
      (afterItem current groups) := by
  obtain ⟨result, last, hl, hread⟩ := h.leads { s with scope := (s.scope ∪ added) \ removed }
    (⟨.flagged added removed, opened, s.scope, current⟩ :: groups) hs hd hg
  have hf : flagged inner added removed s = some (result, { last with scope := s.scope }) := by
    rw [flagged, hl]
    rfl
  cases result with
  | error fault => exact ⟨.error fault, _, bind_error hf, hread⟩
  | ok items =>
    have ended := (h.ended { s with scope := (s.scope ∪ added) \ removed } hs).of_eq hl
    have closes : Leads (expectClose opened >>= fun _ => pure (some (.group items)))
        { last with scope := s.scope } _ (afterItem current groups) :=
      (leads_expectClose (s := { last with scope := s.scope }) (.flagged added removed) s.scope
        last.scope items current groups (ended.atEnd items rfl) rfl).bind
        fun _ u _ => leads_pure rfl
    obtain ⟨result, u, hu, hn⟩ := closes
    exact ⟨result, u, (bind_ok hf).trans hu, hread.trans hn⟩

/-- Flags are set for what follows, or for the content of a group. -/
theorem leads_flagGroup (h : AgreesTo n inner) (hs : s.rest.length ≤ n)
    (hd : s.depth ≤ Nesting.maxDepth) (hg : groups.length + 1 = s.depth) :
    Leads (flagGroup inner opened) s
      ((s.within current groups).proceed opened (GroupHeader.additions opened ∅ s.rest))
      (afterItem current groups) := by
  obtain ⟨result, rest, hl, hread⟩ := exists_letters_eq opened (∅, none) s
  have hread : GroupHeader.additions opened ∅ s.rest = _ := hread
  rw [flagGroup, hread]
  cases result with
  | error fault => exact ⟨.error fault, _, bind_error hl, rfl⟩
  | ok flags =>
    have taken : Mirrors (loop (nextLetter opened) (∅, none)) s (.ok (flags, rest)) :=
      mirrors_ok.mpr hl
    obtain ⟨added, _ | removed⟩ := flags
    · exact taken.ok_leads ⟨_, _, rfl, rfl⟩
    · have shorter : rest <:+ s.rest :=
        ((orderlyTo_loop (rounded_nextLetter opened) _ s (Nat.le_refl _)).of_eq hl).suffix
      exact taken.ok_leads (leads_flagged (s := { s with rest := rest }) h
        (Nat.le_trans shorter.length_le hs) hd hg added removed)

/-- A header that holds a name. -/
theorem leads_named {m : Nesting} {next : Option Token → Cursor → Outcome} (terminator : Char)
    (lexeme : String → Lexeme) {f : String → Descent (Option Token)}
    (hf : ∀ name after, after <:+ s.rest →
      Leads (f name) { s with rest := after } (m.proceed opened (.ok (lexeme name, after))) next) :
    Leads (groupName terminator >>= f) s
      (m.proceed opened (GroupHeader.named terminator lexeme s.rest)) next := by
  refine (mirrors_groupName terminator s).leads (fun fault he => ?_) fun name after he => ?_
  · rw [GroupHeader.named, he]
    rfl
  · rw [GroupHeader.named, he]
    exact hf name after (GroupName.suffix_of_read he)

theorem extension_unnamed (opened rest : List Char) (hl : rest.head? ≠ some '<')
    (he : rest.head? ≠ some '=') :
    GroupHeader.extension opened ('P' :: rest) = .error ⟨.unknownExtension 'P', rest⟩ := by
  cases rest with
  | nil => rfl
  | cons c rest =>
    have hl : c ≠ '<' := by simpa using hl
    have he : c ≠ '=' := by simpa using he
    simp [GroupHeader.extension, hl, he]

theorem extension_not_behind (opened rest : List Char) (hp : rest.head? ≠ some '=')
    (hn : rest.head? ≠ some '!') :
    GroupHeader.extension opened ('<' :: rest) = .error ⟨.unknownExtension '<', opened⟩ := by
  cases rest with
  | nil => rfl
  | cons c rest =>
    have hp : c ≠ '=' := by simpa using hp
    have hn : c ≠ '!' := by simpa using hn
    simp [GroupHeader.extension, hp, hn]

theorem extension_other {k : Char} (hk : k ∉ [':', 'P', '=', '!', '<', '#', '('])
    (opened rest : List Char) :
    GroupHeader.extension opened (k :: rest) =
      if k = '-' ∨ (Flags.ofLetter? k).isSome then GroupHeader.additions opened ∅ (k :: rest)
      else .error ⟨.unknownExtension k, k :: rest⟩ := by
  simp only [List.mem_cons, List.not_mem_nil, or_false, not_or] at hk
  simp [GroupHeader.extension, hk]

section Header

variable (h : AgreesTo n inner) (hs : s.rest.length ≤ n) (hd : s.depth ≤ Nesting.maxDepth)
  (hg : groups.length + 1 = s.depth)
include h hs hd hg

/-- The content behind a header that is read so far. -/
theorem leads_opening {rest : List Char} (hr : rest <:+ s.rest) (kind : GroupKind)
    (hi : kind.inner s.scope = s.scope) (ha : ∀ last, kind.after s.scope last = last) :
    Leads (content inner opened >>= fun items => pure (some (kind.token items)))
      { s with rest := rest }
      ((s.within current groups).proceed opened (.ok (.opening kind, rest)))
      (afterItem current groups) :=
  leads_content (s := { s with rest := rest }) h (Nat.le_trans hr.length_le hs) hd hg kind hi ha

theorem leads_extension_named (hr : s.rest = 'P' :: rest) :
    Leads (extension inner opened) s
      ((s.within current groups).proceed opened (GroupHeader.extension opened ('P' :: rest)))
      (afterItem current groups) := by
  have htail : rest <:+ s.rest := hr ▸ List.suffix_cons 'P' rest
  rw [extension]
  refine .peek_bind ?_
  rw [hr]
  refine (mirrors_bump 'P' hr).ok_leads ?_
  by_cases hname : rest.head? = some '<'
  · obtain ⟨header, rfl⟩ := List.head?_eq_some_iff.mp hname
    exact (mirrors_eat '<' rfl).ok_leads (leads_named (s := { s with rest := header }) '>'
      (fun _ => .opening .plain) fun _ after ha =>
        leads_opening h hs hd hg (ha.trans ((List.suffix_cons _ _).trans htail)) .plain rfl
          fun _ => rfl)
  · refine (mirrors_eat_of_ne hname).ok_leads ?_
    by_cases href : rest.head? = some '='
    · obtain ⟨header, rfl⟩ := List.head?_eq_some_iff.mp href
      exact (mirrors_eat '=' rfl).ok_leads (leads_named (s := { s with rest := header }) ')'
        (fun name => .item (.unrendered (.backreference name))) fun _ after ha => leads_pure rfl)
    · refine (mirrors_eat_of_ne href).ok_leads (.place_bind (leads_throw ?_))
      rw [extension_unnamed opened rest hname href]
      rfl

theorem leads_extension_behind (hr : s.rest = '<' :: rest) :
    Leads (extension inner opened) s
      ((s.within current groups).proceed opened (GroupHeader.extension opened ('<' :: rest)))
      (afterItem current groups) := by
  have htail : rest <:+ s.rest := hr ▸ List.suffix_cons '<' rest
  rw [extension]
  refine .peek_bind ?_
  rw [hr]
  refine (mirrors_bump '<' hr).ok_leads (show Leads (bump >>= _) _ _ _ from ?_)
  cases rest with
  | nil => exact (mirrors_bump_nil rfl).ok_leads (leads_throw rfl)
  | cons d rest =>
    have hmore : rest <:+ s.rest := (List.suffix_cons d rest).trans htail
    refine (mirrors_bump d rfl).ok_leads ?_
    dsimp only
    split
    case h_1 hd' =>
      obtain rfl := Option.some.inj hd'
      rw [lookaround]
      exact leads_opening h hs hd hg hmore (.unrendered (.lookaround false false)) rfl fun _ => rfl
    case h_2 hd' =>
      obtain rfl := Option.some.inj hd'
      rw [lookaround]
      exact leads_opening h hs hd hg hmore (.unrendered (.lookaround false true)) rfl fun _ => rfl
    case h_3 hp hn =>
      refine leads_throw ?_
      rw [extension_not_behind opened (d :: rest) hp hn]
      rfl

/-- The header decides what is read for it. -/
theorem leads_extension :
    Leads (extension inner opened) s
      ((s.within current groups).proceed opened (GroupHeader.extension opened s.rest))
      (afterItem current groups) := by
  cases hr : s.rest with
  | nil =>
    rw [extension]
    refine .peek_bind ?_
    rw [hr]
    exact .place_bind (leads_throw (by rw [hr]; rfl))
  | cons k rest =>
    have htail : rest <:+ s.rest := hr ▸ List.suffix_cons k rest
    by_cases hn : k = 'P'
    · subst hn
      exact leads_extension_named h hs hd hg hr
    by_cases hb : k = '<'
    · subst hb
      exact leads_extension_behind h hs hd hg hr
    rw [extension]
    refine .peek_bind ?_
    rw [hr]
    dsimp only [List.head?_cons]
    split
    case h_1 he => cases he
    case h_2 he =>
      obtain rfl := Option.some.inj he
      exact (mirrors_bump _ hr).ok_leads (leads_opening h hs hd hg htail .plain rfl fun _ => rfl)
    case h_3 he => exact absurd (Option.some.inj he) hn
    case h_4 he =>
      obtain rfl := Option.some.inj he
      rw [lookaround]
      exact (mirrors_bump _ hr).ok_leads (leads_opening h hs hd hg htail
        (.unrendered (.lookaround true false)) rfl fun _ => rfl)
    case h_5 he =>
      obtain rfl := Option.some.inj he
      rw [lookaround]
      exact (mirrors_bump _ hr).ok_leads (leads_opening h hs hd hg htail
        (.unrendered (.lookaround true true)) rfl fun _ => rfl)
    case h_6 he => exact absurd (Option.some.inj he) hb
    case h_7 he =>
      obtain rfl := Option.some.inj he
      have skipped := mirrors_skipPast ')' s
      rw [hr, List.dropWhile_cons_of_pos (by decide)] at skipped
      refine skipped.ok_leads ?_
      show Leads _ _ (Nesting.proceed _ opened (GroupHeader.comment opened rest)) _
      unfold GroupHeader.comment
      cases rest.dropWhile (· ≠ ')') with
      | nil => exact leads_throw rfl
      | cons stop after => exact leads_pure rfl
    case h_8 he =>
      obtain rfl := Option.some.inj he
      refine (mirrors_bump _ hr).ok_leads (leads_named (s := { s with rest := rest }) ')'
        (fun name => .opening (.unrendered (.conditional name))) fun name after ha => ?_)
      exact leads_opening h hs hd hg (ha.trans htail) (.unrendered (.conditional name)) rfl
        fun _ => rfl
    case h_9 he =>
      obtain rfl := Option.some.inj he
      rw [extension_other (by simp_all)]
      by_cases hf : k = '-' ∨ (Flags.ofLetter? k).isSome
      · rw [if_pos hf, if_pos hf, ← hr]
        exact leads_flagGroup h hs hd hg
      · rw [if_neg hf, if_neg hf, ← hr]
        exact .place_bind (leads_throw rfl)

end Header

/-- The parenthesis with its header decides what is read for it. -/
theorem leads_groupBody (current : Alternatives) (h : AgreesTo n inner) (hr : s.rest = '(' :: text)
    (hs : text.length ≤ n) (hd : s.depth ≤ Nesting.maxDepth) (hg : groups.length + 1 = s.depth) :
    Leads (groupBody inner) s ((s.within current groups).conclude s.rest)
      (afterItem current groups) := by
  have hroom : '(' = '(' → (s.within current groups).depth < Nesting.maxDepth := fun _ => by
    show groups.length < _
    omega
  have hl (verbose : Bool) : Lexeme.read verbose '(' text = GroupHeader.read text := by
    cases verbose <;> rfl
  rw [groupBody]
  refine .place_bind ?_
  rw [hr, Nesting.conclude_cons hroom, hl]
  refine (mirrors_bump _ hr).ok_leads ?_
  by_cases hq : text.head? = some '?'
  · obtain ⟨header, rfl⟩ := List.head?_eq_some_iff.mp hq
    exact (mirrors_eat '?' rfl).ok_leads (leads_extension (s := { s with rest := header }) h
      (Nat.le_of_succ_le hs) hd hg)
  · rw [GroupHeader.read_plain hq]
    exact (mirrors_eat_of_ne hq).ok_leads (leads_content (s := { s with rest := text }) h hs hd hg
      .plain rfl fun _ => rfl)

/-- Both readings refuse one group more than there may be. -/
theorem leads_group (h : AgreesTo n inner) (hr : s.rest = '(' :: text) (hs : text.length ≤ n)
    (hd : s.depth ≤ Nesting.maxDepth) (hg : groups.length = s.depth) :
    Leads (group inner) s ((s.within current groups).conclude s.rest)
      (afterItem current groups) := by
  by_cases hmax : s.depth = Nesting.maxDepth
  · refine ⟨.error ⟨.tooDeep, s.rest⟩, s, by rw [group, if_pos hmax], ?_⟩
    have hfull : Nesting.maxDepth ≤ (s.within current groups).depth :=
      Nat.le_of_eq (hg.trans hmax).symm
    rw [hr, Nesting.conclude_tooDeep hfull]
    rfl
  · have hroom : s.deeper.depth ≤ Nesting.maxDepth := Nat.lt_of_le_of_ne hd hmax
    have hlen : groups.length + 1 = s.deeper.depth := congrArg (· + 1) hg
    obtain ⟨result, last, hl, ho⟩ := leads_groupBody (s := s.deeper) current h hr hs hroom hlen
    refine ⟨result, last.shallower, by rw [group, if_neg hmax, hl]; rfl, ?_⟩
    exact ho

/-- Without a parenthesis the depth has no part in it. -/
theorem conclude_lexeme {c : Char} (hr : s.rest = c :: rest) (hc : c ≠ '(')
    {read : Except Fault (Lexeme × List Char)} (hl : Lexeme.read s.isVerbose c rest = read) :
    (s.within current groups).conclude s.rest =
      (s.within current groups).proceed (c :: rest) read := by
  rw [hr, Nesting.conclude_cons fun he => absurd he hc, ← hl]
  rfl

theorem leads_token {p : Descent Token} {read : Except Fault (Token × List Char)}
    (hp : Mirrors p s read) (start : List Char) :
    Leads (p >>= fun token => pure (some token)) s
      ((s.within current groups).proceed start (Lexeme.ofToken read))
      (afterItem current groups) := by
  refine hp.leads (fun fault he => ?_) fun token rest he => leads_pure ?_
  · rw [he]
    rfl
  · rw [he]
    rfl

theorem solid_sign {c : Char} (h : c ∉ ['|', ')', '*', '+', '?', '{', '(', '[', '\\'])
    (rest : List Char) : Lexeme.solid c rest = .ok (.item (sign c), rest) := by
  simp only [List.mem_cons, List.not_mem_nil, or_false, not_or] at h
  unfold Lexeme.solid sign
  split <;> simp_all

/-- An item that is read solid. -/
theorem leads_atom {c : Char} (current : Alternatives) (h : AgreesTo rest.length inner)
    (hr : s.rest = c :: rest) (hd : s.depth ≤ Nesting.maxDepth) (hg : groups.length = s.depth)
    (hl : Lexeme.read s.isVerbose c rest = Lexeme.solid c rest)
    (hc : c ∉ ['|', ')', '*', '+', '?', '{']) :
    Leads (atom inner) s ((s.within current groups).conclude s.rest)
      (afterItem current groups) := by
  rw [atom]
  refine .peek_bind ?_
  rw [hr]
  dsimp only [List.head?_cons]
  split
  case h_1 he => cases he
  case h_2 he =>
    obtain rfl := Option.some.inj he
    exact hr ▸ leads_group h hr (Nat.le_refl _) hd hg
  case h_3 he =>
    obtain rfl := Option.some.inj he
    rw [← hr, conclude_lexeme hr (by decide) hl]
    exact leads_token (mirrors_charClass hr) _
  case h_4 he =>
    obtain rfl := Option.some.inj he
    rw [← hr, conclude_lexeme hr (by decide) hl]
    exact leads_token (mirrors_escape hr) _
  case h_5 hopen hclass hescape he =>
    obtain rfl := Option.some.inj he
    have hsolid := solid_sign (c := c) (by simp_all) rest
    rw [← hr, conclude_lexeme hr (fun he => hopen he) (hl.trans hsolid)]
    exact (mirrors_bump c hr).ok_leads (leads_pure rfl)

/-- A quantifier takes the latest item. -/
theorem leads_quantified (opened : List Char) (q : Quantifier) (items : List Token)
    (branches : List (List Token)) :
    Leads (quantified opened q items) s
      ((s.within ⟨branches, items⟩ groups).proceed opened (.ok (.quantifier q, s.rest)))
      (afterRow branches groups) := by
  cases items with
  | nil => exact leads_throw rfl
  | cons body items =>
    cases body with
    | anchor => exact leads_throw rfl
    | repeated => exact leads_throw rfl
    | _ => exact leads_pure rfl

/-- A question mark right behind the bounds belongs to the quantifier. -/
theorem leads_bounds (opened : List Char) (min : UInt32) (max : Option UInt32) (items : List Token)
    (branches : List (List Token)) :
    Leads (eat '?' >>= fun isLazy => quantified opened ⟨min, max, isLazy⟩ items) s
      ((s.within ⟨branches, items⟩ groups).proceed opened (.ok (Lexeme.quantified min max s.rest)))
      (afterRow branches groups) := by
  by_cases hq : s.rest.head? = some '?'
  · obtain ⟨rest, hr⟩ := List.head?_eq_some_iff.mp hq
    rw [hr]
    exact (mirrors_eat '?' hr).ok_leads
      (leads_quantified (s := { s with rest := rest }) opened _ items branches)
  · have greedy : Lexeme.quantified min max s.rest = (.quantifier ⟨min, max, false⟩, s.rest) := by
      unfold Lexeme.quantified
      split
      case h_1 he => exact absurd (by rw [he]; rfl) hq
      case h_2 => rfl
    rw [greedy]
    exact (mirrors_eat_of_ne hq).ok_leads (leads_quantified opened _ items branches)

theorem leads_quantify_sign {c : Char} {min : UInt32} {max : Option UInt32}
    (hr : s.rest = c :: rest)
    (hb : (c, min, max) ∈ [('*', 0, none), ('+', 1, none), ('?', 0, some 1)]) (items : List Token)
    (branches : List (List Token)) :
    Leads (quantify items) s
      ((s.within ⟨branches, items⟩ groups).proceed s.rest (.ok (Lexeme.quantified min max rest)))
      (afterRow branches groups) := by
  rw [quantify]
  exact .place_bind ((quantifier_of_sign hr hb).ok_leads
    (leads_bounds (s := { s with rest := rest }) s.rest min max items branches))

theorem leads_quantify_brace (hr : s.rest = '{' :: rest) (items : List Token)
    (branches : List (List Token)) :
    Leads (quantify items) s
      ((s.within ⟨branches, items⟩ groups).proceed s.rest (Lexeme.brace rest))
      (afterRow branches groups) := by
  have read := quantifier_of_brace hr
  rw [quantify]
  refine .place_bind ?_
  unfold Lexeme.brace
  cases hscan : Count.scan? ('{' :: rest) with
  | none =>
    rw [hscan] at read
    exact read.ok_leads ((mirrors_bump '{' hr).ok_leads (leads_pure rfl))
  | some out =>
    obtain ⟨n, count⟩ := out
    rw [hscan] at read
    dsimp only at read ⊢
    cases hb : count.bounds? with
    | none =>
      rw [hb, ← hr] at read
      rw [← hr]
      exact read.leads (fun _ he => by cases he; rfl) fun _ _ he => by cases he
    | some bounds =>
      obtain ⟨min, max⟩ := bounds
      rw [hb] at read
      exact read.ok_leads
        (leads_bounds (s := { s with rest := ('{' :: rest).drop n }) s.rest min max items branches)

theorem leads_quantify {c : Char} (hr : s.rest = c :: rest)
    (hc : c = '*' ∨ c = '+' ∨ c = '?' ∨ c = '{') (items : List Token)
    (branches : List (List Token)) :
    Leads (quantify items) s
      ((s.within ⟨branches, items⟩ groups).proceed s.rest (Lexeme.solid c rest))
      (afterRow branches groups) := by
  rcases hc with rfl | rfl | rfl | rfl
  · exact leads_quantify_sign hr (by simp) items branches
  · exact leads_quantify_sign hr (by simp) items branches
  · exact leads_quantify_sign hr (by simp) items branches
  · exact leads_quantify_brace hr items branches

/-- What comes next is a lexeme with all that belongs to it, or the end of the row. -/
theorem leads_nextItem (h : ∀ m < s.rest.length, AgreesTo m inner) (items : List Token)
    (branches : List (List Token)) (hd : s.depth ≤ Nesting.maxDepth)
    (hg : groups.length = s.depth) :
    Leads (nextItem inner items) s (afterRow branches groups items s)
      (Sum.elim (afterRow branches groups) fun items =>
        afterRow branches groups items.reverse) := by
  have ends_row : afterRow branches groups items s =
      afterRow branches groups items.reverse.reverse s := by
    rw [List.reverse_reverse]
  rw [nextItem]
  refine .peek_bind ?_
  cases hr : s.rest with
  | nil => exact leads_pure ends_row
  | cons c rest =>
    rw [List.head?_cons]
    refine .isVerbose_bind ?_
    split
    case isTrue hblank =>
      have hl : Lexeme.read s.isVerbose c rest = .ok (.filler, rest) := by
        rw [Lexeme.read, if_pos hblank]
      have hc : c ≠ '(' := by
        rintro rfl
        exact absurd (Bool.and_eq_true_iff.mp hblank).2 (by decide)
      rw [afterRow, conclude_lexeme hr hc hl]
      exact (mirrors_bump c hr).ok_leads (leads_pure rfl)
    case isFalse hblank =>
      refine .isVerbose_bind ?_
      split
      case isTrue hsign =>
        obtain rfl : c = '#' := by simpa using (Bool.and_eq_true_iff.mp hsign).2
        have hl : Lexeme.read s.isVerbose '#' rest = .ok (.filler, Lexeme.nextLine rest) := by
          rw [Lexeme.read, if_neg hblank, if_pos hsign]
        have skipped := mirrors_skipPast '\n' s
        rw [hr, List.dropWhile_cons_of_pos (by decide)] at skipped
        rw [afterRow, conclude_lexeme hr (by decide) hl]
        exact skipped.ok_leads (leads_pure rfl)
      case isFalse hsign =>
        have hl : Lexeme.read s.isVerbose c rest = Lexeme.solid c rest := by
          rw [Lexeme.read, if_neg hblank, if_neg hsign]
        split
        case isTrue => exact leads_pure ends_row
        case isFalse hstop =>
          split
          case isTrue hc =>
            have hopen : c ≠ '(' := by
              rintro rfl
              exact absurd hc (by decide)
            rw [afterRow, conclude_lexeme hr hopen hl, ← hr]
            exact (leads_quantify hr hc items branches).bind fun more t _ => leads_pure rfl
          case isFalse hc =>
            have shorter : AgreesTo rest.length inner := h _ (by simp [hr])
            have hatom := leads_atom ⟨branches, items⟩ shorter hr hd hg hl (by simp_all)
            refine hatom.bind fun token t _ => ?_
            cases token with
            | none => exact leads_pure rfl
            | some token => exact leads_pure rfl

theorem took_of_agreesTo (h : ∀ m < n, AgreesTo m inner) (hs : s.rest ≠ [])
    (hn : s.rest.length ≤ n) :
    Returns (atom inner) s (Took s) := by
  have hlt : s.rest.tail.length < n := by
    have := List.length_pos_iff.mpr hs
    rw [List.length_tail]
    omega
  exact took_atom fun t ht => ((h _ hlt).ended t ht).mono fun _ _ h => h.toOrderly

/-- A row of items goes along until something can follow them. -/
theorem leads_sequence (h : ∀ m < s.rest.length, AgreesTo m inner) (branches : List (List Token))
    (hd : s.depth ≤ Nesting.maxDepth) (hg : groups.length = s.depth) :
    Leads (sequence inner) s (afterRow branches groups [] s)
      fun items => afterRow branches groups items.reverse :=
  leads_loop (afterRow branches groups)
    (fun items _ ht hdt => leads_nextItem (fun m hm => h m (Nat.lt_of_lt_of_le hm ht)) items
      branches (hdt.symm ▸ hd) (hg.trans hdt.symm))
    (fun items _ ht => rounded_nextItem (fun hn => took_of_agreesTo h hn ht) items) []

theorem joined_eq (branch : List Token) (branches : List (List Token)) :
    joined (branch :: branches).reverse = Alternatives.tokens ⟨branches, branch.reverse⟩ := by
  cases branches with
  | nil => simp [joined, Alternatives.tokens]
  | cons other branches =>
    have several (first second : List Token) (more : List (List Token)) :
        joined (more ++ [second] ++ [first]) = [.alternation (more ++ [second] ++ [first])] := by
      unfold joined
      split
      case h_1 he => simpa using congrArg List.length he
      case h_2 => rfl
    simpa [Alternatives.tokens] using several branch other branches.reverse

/-- Bars end the branches in both readings. -/
theorem leads_nextBranch (h : ∀ m < s.rest.length, AgreesTo m inner)
    (branches : List (List Token)) (hd : s.depth ≤ Nesting.maxDepth)
    (hg : groups.length = s.depth) :
    Leads (nextBranch inner branches) s (afterRow branches groups [] s)
      (Sum.elim (fun branches => afterRow branches groups []) fun items =>
        afterRow [] groups items.reverse) := by
  refine (leads_sequence h branches hd hg).bind fun branch t ht => ?_
  have ended := (ended_sequence_of fun u hn hu => took_of_agreesTo h hn hu).of_eq ht
  by_cases hbar : t.rest.head? = some '|'
  · obtain ⟨rest, hr⟩ := List.head?_eq_some_iff.mp hbar
    refine (mirrors_eat '|' hr).ok_leads (leads_pure ?_)
    rw [afterRow, hr, Nesting.conclude_bar]
    simp only [Cursor.within, Alternatives.split, List.reverse_reverse]
    rfl
  · refine (mirrors_eat_of_ne hbar).ok_leads (leads_pure ?_)
    have hstop (c : Char) (hc : c ∈ t.rest.head?) : c = ')' := by
      rcases List.mem_cons.mp (ended.atEnd branch rfl c hc) with rfl | hc'
      · exact absurd hc hbar
      · exact List.mem_singleton.mp hc'
    rw [joined_eq]
    refine (Nesting.conclude_congr (n := t.within ⟨branches, branch.reverse⟩ groups) ?_ hstop).symm
    simp [Cursor.within, Alternatives.tokens]

/-- Enough calls for the text make the alternatives agree, groups in groups included. -/
theorem agreesTo_alternation {calls : Nat} (hn : n < calls) : AgreesTo n (alternation calls) := by
  induction calls generalizing n with
  | zero => exact absurd hn (Nat.not_lt_zero _)
  | succ calls ih =>
    have shorter (m : Nat) (hm : m < n) : AgreesTo m (alternation calls) :=
      ih (Nat.lt_of_lt_of_le hm (Nat.le_of_lt_succ hn))
    refine ⟨fun s hs => ended_alternation (Nat.lt_of_le_of_lt hs hn), fun s groups hs hd hg => ?_⟩
    exact leads_loop (fun branches => afterRow branches groups [])
      (fun branches t ht hdt => leads_nextBranch
        (fun m hm => shorter m (Nat.lt_of_lt_of_le hm (Nat.le_trans ht hs))) branches
        (hdt.symm ▸ hd) (hg.trans hdt.symm))
      (fun branches t ht => rounded_nextBranch
        (ended_sequence_of fun u hu hut => took_of_agreesTo shorter hu
          (Nat.le_trans hut (Nat.le_trans ht hs))) branches) []

theorem leads_pattern {calls : Nat} (hc : text.length < calls) (flags : Flags) :
    Leads (pattern calls) (Cursor.start text flags) (Pattern.readOnce text flags)
      fun out _ => .ok out := by
  have agrees := agreesTo_alternation hc
  rw [pattern, Pattern.readOnce_eq_conclude]
  refine Leads.bind (agrees.leads (Cursor.start text flags) [] (Nat.le_refl _) (Nat.zero_le _) rfl)
    fun tokens t ht => .peek_bind ?_
  have ended := (agrees.ended (Cursor.start text flags) (Nat.le_refl _)).of_eq ht
  cases hr : t.rest with
  | nil =>
    refine ⟨_, t, rfl, ?_⟩
    simp [hr, Nesting.conclude, Nesting.finish, Cursor.within, Alternatives.tokens, Except.map,
      Except.bind]
  | cons c rest =>
    obtain rfl : c = ')' := by simpa [Cursor.StopsAt, hr] using ended.atEnd tokens rfl
    refine .place_bind (leads_throw ?_)
    rw [afterRow, hr, Nesting.conclude_unbalanced rfl]

theorem readOnce_eq {calls : Nat} (hc : text.length < calls) (flags : Flags) :
    readOnce calls text flags = some (Pattern.readOnce text flags) := by
  obtain ⟨result, t, hp, hr⟩ := leads_pattern hc flags
  have hb : (result.bind fun out => .ok out) = result := by cases result <;> rfl
  rw [readOnce, hp, hr, hb]
  rfl

/-- A descent with enough calls ends on every text, with what the reading by lexemes comes to. -/
theorem read_eq {calls : Nat} (hc : text.length < calls) (flags : Flags) :
    read calls text flags = some (Pattern.read text flags) := by
  unfold read Pattern.read
  rw [readOnce_eq hc]
  cases Pattern.readOnce text flags with
  | error fault => rfl
  | ok out =>
    dsimp only [bind, Option.bind]
    split
    · exact readOnce_eq hc _
    · rfl

/-- From any cursor on, with a call for each character that is left and one more, every reader ends
and keeps what it has to keep, and more calls change nothing. Items and groups take a character,
rows and alternatives stop where they should. The alternatives in front of a cursor are those that
a nesting of its depth gets there, and a descent through a whole text ends with what the reading
by lexemes comes to. -/
theorem cursor_discipline (s : Cursor) (calls : Nat) (hc : s.rest.length < calls) :
    (∀ {α : Type} {p : Descent α}, IsReader calls p → Returns p s (Orderly s)) ∧
      Returns (atom (alternation calls)) s (Took s) ∧
      Returns (group (alternation calls)) s (Took s) ∧
      Returns charClass s (Took s) ∧ Returns escape s (Took s) ∧
      Returns (sequence (alternation calls)) s (Ended (Cursor.StopsAt ['|', ')']) s) ∧
      Returns (alternation calls) s (Ended (Cursor.StopsAt [')']) s) ∧
      (∀ more, calls ≤ more → alternation more s = alternation calls s) ∧
      (∀ groups : List OpenGroup, groups.length = s.depth → s.depth ≤ Nesting.maxDepth →
        Leads (alternation calls) s ((s.within .empty groups).conclude s.rest) fun items =>
          afterRow [] groups items.reverse) ∧
      ∀ text flags, read (text.length + 1) text flags = some (Pattern.read text flags) :=
  ⟨fun h => orderly_of_isReader h hc, took_atom (orderlyTo_inner hc),
    took_group (orderlyTo_inner hc), took_charClass s, took_escape s, ended_sequence hc,
    ended_alternation hc, fun _ hm => alternation_eq_of_le hc hm,
    fun groups hg hd => (agreesTo_alternation hc).leads s groups (Nat.le_refl _) hd hg,
    fun text flags => read_eq (Nat.lt_succ_self text.length) flags⟩

/-- A group with a flag directive in it, where there is room for these two and no more. -/
theorem cursor_discipline_two_levels :
    ∃ s t : Cursor, s.rest.length < 9 ∧ s.depth + 2 = Nesting.maxDepth ∧
      group (alternation 9) s = some (.ok (some (.group [.literal 'a'])), t) ∧
      t.depth = s.depth ∧ t.deepest ≤ Nesting.maxDepth ∧ t.rest.length < s.rest.length ∧
      (∃ added, t.scope = s.scope ∪ added ∧ t.global.has added = true) ∧
      Returns (groupBody (alternation 9)) s (Orderly s) ∧ alternation 20 s = alternation 9 s ∧
      ∃ groups : List OpenGroup, groups.length = s.depth ∧
        Leads (alternation 9) s ((s.within .empty groups).conclude s.rest) fun items =>
          afterRow [] groups items.reverse := by
  have ⟨readers, _, took, _, _, _, _, more, agrees, _⟩ := cursor_discipline
    ⟨['(', '(', '?', 'i', ')', 'a', ')', '|'], ∅, ∅, 198, 198⟩ 9 (by decide)
  have outcome := took.of_eq (t := ⟨['|'], .ignoreCase, .ignoreCase, 198, 200⟩) rfl
  exact ⟨_, _, by decide, rfl, rfl, outcome.depth, outcome.deepest (by decide),
    outcome.shorter _ rfl (by simp), outcome.scope _ rfl, readers .groupBody,
    more 20 (by decide), List.replicate 198 ⟨.plain, [], ∅, .empty⟩, List.length_replicate,
    agrees _ List.length_replicate (by decide)⟩

end Descent

end RegexTypeset
