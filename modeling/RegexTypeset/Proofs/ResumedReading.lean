import RegexTypeset.Proofs.AlikeReadings
import RegexTypeset.Proofs.LexemeExtent

/-! # A reading that goes on from elsewhere

What is read from the start on is read in the same way where alternatives were begun and
groups are open: the first branch goes on where the alternatives end, and the open groups
stay below those of the text. Only the depth of the nesting can stop it. Text behind only
moves the places of open groups, and ends a comment that is open in verbose reading.
-/
namespace RegexTypeset

namespace Nesting

/-- A text is read, also with so many more groups around it. -/
inductive HasRoom (k : Nat) : Nesting → List Char → Prop where
  | nil (n : Nesting) : HasRoom k n []
  | step {n n' : Nesting} {c : Char} {rest rest' : List Char} {lexeme : Lexeme} :
      Step n c rest lexeme n' rest' → (c = '(' → n.depth + k < maxDepth) → HasRoom k n' rest' →
      HasRoom k n (c :: rest)

variable {n n' m : Nesting} {c : Char} {rest rest' text behind place : List Char} {lexeme : Lexeme}
  {earlier : Alternatives} {outer : List OpenGroup} {given given' : Flags} {k : Nat}

theorem hasRoom_zero (h : n.read text = .ok m) : HasRoom 0 n text := by
  induction hl : text.length using Nat.strongRecOn generalizing n text with
  | ind l ih =>
    cases text with
    | nil => exact .nil n
    | cons c rest =>
      obtain ⟨lexeme, n', rest', hs, hr⟩ := exists_step h
      exact .step hs hs.shallow (ih _ (hl ▸ hs.length_lt) hr rfl)

theorem Alike.hasRoom (h : Alike id given given' n n') (hr : HasRoom k n text) : HasRoom k n' text := by
  induction hr generalizing n' with
  | nil => exact .nil n'
  | step hs hd _ ih =>
    obtain ⟨m', hs', hm⟩ := h.step hs id rfl hs.reads
    exact .step hs' (fun hc => h.depth.symm ▸ hd hc) (ih hm)

def outermost (earlier : Alternatives) (groups : List OpenGroup) (a : Alternatives) : Alternatives :=
  if groups.isEmpty then earlier.andThen a else a

def resumeGroups (earlier : Alternatives) (behind : List Char) : List OpenGroup → List OpenGroup
  | [] => []
  | group :: groups =>
    { group with
      opened := group.opened ++ behind
      around := outermost earlier groups group.around } :: resumeGroups earlier behind groups

/-- The same state of a reading that went on from alternatives and groups, with text behind. -/
def resume (earlier : Alternatives) (outer : List OpenGroup) (behind : List Char) (n : Nesting) :
    Nesting :=
  { n with
    current := outermost earlier n.groups n.current
    groups := resumeGroups earlier behind n.groups ++ outer }

@[simp] theorem length_resumeGroups (groups : List OpenGroup) :
    (resumeGroups earlier behind groups).length = groups.length := by
  induction groups with
  | nil => rfl
  | cons group groups ih => simp [resumeGroups, ih]

@[simp] theorem depth_resume : (n.resume earlier outer behind).depth = n.depth + outer.length := by
  simp [resume, depth]

theorem resume_of_groups (h : n.groups = []) (earlier : Alternatives) (outer : List OpenGroup)
    (behind : List Char) :
    n.resume earlier outer behind = ⟨n.scope, n.global, earlier.andThen n.current, outer⟩ := by
  rcases n with ⟨scope, global, current, groups⟩
  obtain rfl : groups = [] := h
  rfl

theorem outermost_add (groups : List OpenGroup) (a : Alternatives) (token : Token) :
    (outermost earlier groups a).add token = outermost earlier groups (a.add token) := by
  cases groups with
  | nil => exact Alternatives.andThen_add earlier a token
  | cons => rfl

theorem outermost_split (groups : List OpenGroup) (a : Alternatives) :
    (outermost earlier groups a).split = outermost earlier groups a.split := by
  cases groups with
  | nil => exact Alternatives.andThen_split earlier a
  | cons => rfl

theorem outermost_quantify (earlier : Alternatives) (groups : List OpenGroup) {a b : Alternatives}
    {q : Quantifier} (h : a.quantify q = .ok b) :
    (outermost earlier groups a).quantify q = .ok (outermost earlier groups b) := by
  cases groups with
  | nil => exact Alternatives.andThen_quantify h earlier
  | cons => exact h

/-- What a lexeme does, it does where more is around it. -/
theorem push_resume (h : n.push place lexeme = .ok n') (earlier : Alternatives)
    (outer : List OpenGroup) (behind : List Char) :
    (n.resume earlier outer behind).push (place ++ behind) lexeme =
      .ok (n'.resume earlier outer behind) := by
  cases lexeme with
  | filler => cases h; rfl
  | item token =>
    cases h
    simp [push, add, resume, outermost_add]
  | flags added => cases h; rfl
  | bar =>
    cases h
    simp [push, resume, outermost_split]
  | opening kind =>
    cases h
    simp [push, openGroup, resume, resumeGroups, outermost]
  | closing =>
    obtain ⟨group, groups, hg, rfl⟩ := exists_group_of_push h
    rcases n with ⟨scope, global, current, _⟩
    obtain rfl : _ = group :: groups := hg
    have hc : outermost earlier (group :: groups) current = current := rfl
    simp [push, closeGroup?, resume, resumeGroups, hc, outermost_add]
  | quantifier q =>
    obtain ⟨current, hq, rfl⟩ := exists_quantify_of_push h
    have hq' := outermost_quantify earlier n.groups hq
    simp [push, resume, hq']

theorem Step.resume (h : Step n c rest lexeme n' rest') (hd : c = '(' → n.depth + outer.length < maxDepth)
    {more more' : List Char} (hr : Lexeme.read n.isVerbose c more = .ok (lexeme, more'))
    (he : more = rest ++ behind) (earlier : Alternatives) :
    Step (n.resume earlier outer behind) c more lexeme (n'.resume earlier outer behind) more' := by
  subst he
  exact ⟨fun hc => depth_resume ▸ hd hc, hr, push_resume h.effect earlier outer behind⟩

/-- A reading goes on where more is around it. Only a comment at the end of a verbose reading
takes a part of the text behind. -/
theorem HasRoom.read_resume (hr : HasRoom outer.length n text) (hb : ∀ d ∈ behind.head?, Inert d)
    (h : n.read text = .ok m) (earlier : Alternatives) :
    (n.resume earlier outer behind).read (text ++ behind) =
        (m.resume earlier outer behind).read behind ∨
      m.isVerbose = true ∧ (n.resume earlier outer behind).read (text ++ behind) =
        (m.resume earlier outer behind).read (Lexeme.nextLine behind) := by
  induction hr with
  | nil =>
    rw [read_nil] at h
    cases h
    exact Or.inl rfl
  | @step n n' c rest rest' lexeme hs hd _ ih =>
    rw [hs.read_eq] at h
    rcases Lexeme.read_append hs.reads hb with hn | ⟨ho, rfl, rfl⟩
    · have he := (hs.resume hd hn rfl earlier).read_eq
      rw [List.cons_append, he]
      exact ih h
    · -- an open comment is the last lexeme, and goes on behind the text
      have he := (hs.resume hd (Lexeme.read_openComment ho behind) rfl earlier).read_eq
      have hv : n.isVerbose = true := ho.verbose
      obtain rfl : n = n' := Except.ok.inj hs.effect
      rw [read_nil] at h
      cases h
      rw [List.cons_append, he]
      exact Or.inr ⟨hv, rfl⟩

/-- Without room a reading stops at a parenthesis that is too deep. -/
theorem read_resume_tooDeep (hr : ¬ HasRoom outer.length n text) (hb : ∀ d ∈ behind.head?, Inert d)
    (h : n.read text = .ok m) (earlier : Alternatives) :
    ∃ place, (n.resume earlier outer behind).read (text ++ behind) = .error ⟨.tooDeep, place⟩ := by
  induction hl : text.length using Nat.strongRecOn generalizing n text with
  | ind l ih =>
    cases text with
    | nil => exact absurd (.nil n) hr
    | cons c rest =>
      obtain ⟨lexeme, n', rest', hs, h'⟩ := exists_step h
      by_cases hd : c = '(' → n.depth + outer.length < maxDepth
      · have hr' : ¬ HasRoom outer.length n' rest' := fun hr' => hr (.step hs hd hr')
        rcases Lexeme.read_append hs.reads hb with hn | ⟨-, -, rfl⟩
        · rw [List.cons_append, (hs.resume hd hn rfl earlier).read_eq]
          exact ih _ (hl ▸ hs.length_lt) hr' h' rfl
        · exact absurd (.nil n') hr'
      · obtain ⟨hc, hd⟩ := Classical.not_imp.mp hd
        have deep : c = '(' ∧ maxDepth ≤ (n.resume earlier outer behind).depth :=
          ⟨hc, by rw [depth_resume]; omega⟩
        rw [List.cons_append, read_cons, if_pos deep]
        exact ⟨_, rfl⟩

def restart (n : Nesting) : Nesting := ⟨n.scope, n.global, .empty, []⟩

/-- Under the flags of a state a whole pattern is read: at its end all groups are closed. -/
structure Whole (n : Nesting) (text : List Char) (m : Nesting) : Prop where
  reads : n.restart.read text = .ok m
  closed : m.groups = []

/-- The state after a whole pattern that leads to `m` under the flags of `n` alone. -/
def goOn (n m : Nesting) : Nesting := ⟨m.scope, m.global, n.current.andThen m.current, n.groups⟩

theorem whole_nil (n : Nesting) : Whole n [] n.restart := ⟨read_nil _, rfl⟩

theorem alike_restart (h : n'.isVerbose = n.isVerbose) :
    Alike id n.global n'.global n.restart n'.restart :=
  ⟨h, ⟨∅, n.global.union_empty.symm, n'.global.union_empty.symm⟩, rfl, .nil⟩

/-- Whether there is room for a pattern depends on no flag but the verbose one. -/
theorem hasRoom_restart (h : n'.isVerbose = n.isVerbose) :
    HasRoom k n'.restart text ↔ HasRoom k n.restart text :=
  ⟨(alike_restart h.symm).hasRoom, (alike_restart h).hasRoom⟩

/-- A whole pattern is one under other flags that are as verbose. -/
theorem Whole.transfer (hw : Whole n text m) (h : n'.isVerbose = n.isVerbose) :
    ∃ m', Whole n' text m' ∧ Alike id n.global n'.global m m' := by
  obtain ⟨m', hm', ha⟩ := (alike_restart h).read hw.reads
  exact ⟨m', ⟨hm', ha.closed hw.closed⟩, ha⟩

theorem resume_restart (n : Nesting) (behind : List Char) :
    n.restart.resume n.current n.groups behind = n := rfl

/-- A whole pattern is read from a state with its flags, if there is room for its groups. -/
theorem Whole.read_from (hw : Whole n text m) (hr : HasRoom n.depth n.restart text)
    (hb : ∀ d ∈ behind.head?, Inert d) :
    n.read (text ++ behind) = (n.goOn m).read behind ∨
      m.isVerbose = true ∧ n.read (text ++ behind) = (n.goOn m).read (Lexeme.nextLine behind) := by
  have hread := hr.read_resume hb hw.reads n.current
  rwa [resume_restart, resume_of_groups hw.closed] at hread

/-- Without room for its groups some parenthesis of it is too deep. -/
theorem Whole.read_from_tooDeep (hw : Whole n text m) (hr : ¬ HasRoom n.depth n.restart text)
    (hb : ∀ d ∈ behind.head?, Inert d) :
    ∃ place, n.read (text ++ behind) = .error ⟨.tooDeep, place⟩ := by
  have hread := read_resume_tooDeep hr hb hw.reads n.current
  rwa [resume_restart] at hread

theorem Whole.hasRoom (hw : Whole n text m) (hn : n.groups = []) : HasRoom n.depth n.restart text := by
  rw [depth, hn]
  exact hasRoom_zero hw.reads

theorem Whole.read_last (hw : Whole n text m) (hn : n.groups = []) : n.read text = .ok (n.goOn m) := by
  have hb : ∀ d ∈ ([] : List Char).head?, Inert d := fun d hd => by cases hd
  have hread := hw.read_from (hw.hasRoom hn) hb
  rw [List.append_nil] at hread
  rcases hread with hread | ⟨-, hread⟩ <;> exact hread.trans (read_nil _)

/-- A pattern that is not verbose at its end, in front of another text. -/
theorem Whole.read_first (hw : Whole n text m) (hn : n.groups = []) (hv : m.isVerbose = false)
    (hb : ∀ d ∈ behind.head?, Inert d) : n.read (text ++ behind) = (n.goOn m).read behind := by
  rcases hw.read_from (hw.hasRoom hn) hb with hread | ⟨hm, -⟩
  · exact hread
  · exact absurd (hv.symm.trans hm) (by decide)

end Nesting

end RegexTypeset
