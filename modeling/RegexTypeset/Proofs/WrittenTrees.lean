import RegexTypeset.Proofs.BareText
import RegexTypeset.Proofs.VerboseScope

/-! # Reading back what is written

A tree is written from the texts of its leaves: groups in parentheses, quantifiers behind
what they apply to, bars between branches. If each leaf is read back from its text,
whatever follows, content is read back from what is written, as long as there is room
for its groups. Only a quantifier at the end must not be followed by a question mark.
-/
namespace RegexTypeset

/-- Outside verbose reading a text in front of another one is read as tokens, if there is
room for their groups. -/
def ReadsAs (text : List Char) (tokens : List Token) (depth : Nat) (rest : List Char) : Prop :=
  ∀ n : Nesting, n.isVerbose = false → n.depth + depth ≤ Nesting.maxDepth →
    n.read (text ++ rest) = (n.addAll tokens).read rest

def Quiet (rest : List Char) : Prop := rest.head? ≠ some '?'

def ReadsAsContent (text : List Char) (items : List Token) (depth : Nat) (rest : List Char) : Prop :=
  ∀ n : Nesting, n.isVerbose = false → n.depth + depth ≤ Nesting.maxDepth →
    n.read (text ++ rest) = (n.addContent items).read rest

namespace Nesting

@[simp] theorem depth_openGroup (n : Nesting) (place : List Char) (kind : GroupKind) :
    (n.openGroup place kind).depth = n.depth + 1 := rfl

theorem isVerbose_openGroup {kind : GroupKind} (hk : ∀ outer, kind.inner outer = outer)
    (n : Nesting) (place : List Char) : (n.openGroup place kind).isVerbose = n.isVerbose :=
  congrArg (·.has .verbose) (hk n.scope)

/-- A group in which no flags change, from the reading of its content. -/
theorem read_enclosed {n : Nesting} {s rest : List Char} (kind : GroupKind) (header : List Char)
    {items : List Token} (hd : n.depth < maxDepth)
    (hh : GroupHeader.read (header ++ (s ++ ')' :: rest)) = .ok (.opening kind, s ++ ')' :: rest))
    (ht : (Alternatives.empty.addContent items).tokens = items)
    (h : ∀ place, (n.openGroup place kind).read (s ++ ')' :: rest) =
      ((n.openGroup place kind).addContent items).read (')' :: rest)) :
    n.read ('(' :: (header ++ (s ++ [')'])) ++ rest) = (n.addAll [kind.token items]).read rest := by
  let place := '(' :: (header ++ (s ++ ')' :: rest))
  have opens : n.read place = (n.openGroup place kind).read (s ++ ')' :: rest) :=
    read_opening hd hh
  have closes : ((n.openGroup place kind).addContent items).read (')' :: rest) =
      (n.addAll [kind.token items]).read rest := by
    have hs : kind.after n.scope (kind.inner n.scope) = n.scope := GroupKind.after_inner kind n.scope
    rw [read_closing rfl]
    simp only [addContent, openGroup, ht, hs]
    rfl
  have he : '(' :: (header ++ (s ++ [')'])) ++ rest = place := by simp [place]
  rw [he]
  exact opens.trans ((h place).trans closes)

/-- A quantifier takes the item before it. -/
theorem read_quantifier {n : Nesting} {c : Char} {text rest : List Char} {q : Quantifier}
    {body : Token} (hb : body.isRepeatable = true) (hc : c ≠ '(')
    (hl : Lexeme.read n.isVerbose c text = .ok (.quantifier q, rest)) :
    (n.addAll [body]).read (c :: text) = (n.addAll [.repeated q body]).read rest := by
  refine read_lexeme (.quantifier q) (fun he => absurd he hc) hl ?_
  cases body <;> first | rfl | cases hb

end Nesting

namespace ReadsAs

variable {s t rest : List Char} {a b : List Token} {d e : Nat}

theorem nil : ReadsAs [] [] d rest := fun _ _ _ => rfl

theorem append (hs : ReadsAs s a d (t ++ rest)) (ht : ReadsAs t b d rest) :
    ReadsAs (s ++ t) (a ++ b) d rest := by
  intro n hv hd
  rw [List.append_assoc, hs n hv hd, ht (n.addAll a) hv hd, Nesting.addAll_addAll]

theorem mono (h : ReadsAs s a d rest) (hd : d ≤ e) : ReadsAs s a e rest :=
  fun n hv hn => h n hv (Nat.le_trans (Nat.add_le_add_left hd _) hn)

/-- An item that is one lexeme. A parenthesis needs room even if it opens no group. -/
theorem lexeme {c : Char} {text : List Char} {token : Token} (hc : c = '(' → 0 < d)
    (h : Lexeme.solid c (text ++ rest) = .ok (.item token, rest)) :
    ReadsAs (c :: text) [token] d rest := by
  intro n hv hd
  have hl : Lexeme.read n.isVerbose c (text ++ rest) = .ok (.item token, rest) := by
    rw [hv]
    simpa [Lexeme.read] using h
  refine Nesting.read_lexeme (.item token) (fun he => ?_) hl rfl
  have := hc he
  omega

/-- An item and the quantifier behind it. -/
theorem repeated {q : Quantifier} {body : Token} (hq : q.isReversed = false)
    (hb : body.isRepeatable = true) (hr : q.isLazy = true ∨ Quiet rest)
    (h : ReadsAs s [body] d ((Piece.quantifier q).flatMap Piece.raw ++ rest)) :
    ReadsAs (s ++ (Piece.quantifier q).flatMap Piece.raw) [.repeated q body] d rest := by
  intro n hv hd
  obtain ⟨c, text, hc, hp, hs⟩ := Lexeme.solid_quantifier hq hr
  rw [List.append_assoc, h n hv hd, hc, List.cons_append]
  refine Nesting.read_quantifier hb hp ?_
  rw [hv]
  simpa [Lexeme.read] using hs

/-- Content between a parenthesis with its header and a closing one. The flags are the same
inside. -/
theorem enclosed (kind : GroupKind) (header : List Char) {items : List Token}
    (hk : ∀ outer, kind.inner outer = outer)
    (hh : GroupHeader.read (header ++ (s ++ ')' :: rest)) = .ok (.opening kind, s ++ ')' :: rest))
    (ht : (Alternatives.empty.addContent items).tokens = items)
    (h : ReadsAsContent s items d (')' :: rest)) :
    ReadsAs ('(' :: (header ++ (s ++ [')']))) [kind.token items] (d + 1) rest := by
  intro n hv hd
  refine Nesting.read_enclosed kind header (by omega) hh ht fun place => h _ ?_ ?_
  · rw [Nesting.isVerbose_openGroup hk, hv]
  · rw [Nesting.depth_openGroup]
    omega

end ReadsAs

section
variable (text : Token → List Char)

mutual

def Token.written : Token → List Char
  | .group items => '(' :: (Token.listWritten items ++ [')'])
  | .repeated q body => Token.written body ++ (Piece.quantifier q).flatMap Piece.raw
  | .alternation branches => Token.branchWritten branches
  | token => text token

def Token.listWritten : List Token → List Char
  | [] => []
  | token :: tokens => Token.written token ++ Token.listWritten tokens

def Token.branchWritten : List (List Token) → List Char
  | [] => []
  | [branch] => Token.listWritten branch
  | branch :: branches => Token.listWritten branch ++ '|' :: Token.branchWritten branches

end

end

section
variable (depth : Token → Nat)

mutual

def Token.depthOver : Token → Nat
  | .group items => listDepthOver items + 1
  | .repeated _ body => Token.depthOver body
  | .alternation branches => branchDepthOver branches
  | token => depth token

def listDepthOver : List Token → Nat
  | [] => 0
  | token :: tokens => max (Token.depthOver token) (listDepthOver tokens)

def branchDepthOver : List (List Token) → Nat
  | [] => 0
  | branch :: branches => max (listDepthOver branch) (branchDepthOver branches)

end

end

/-- Leaves that are read back from their texts, whatever follows. -/
structure ReadableLeaves (leaf : Token → Prop) (text : Token → List Char) (depth : Token → Nat) :
    Prop where
  written : ∀ {token}, leaf token → token.written text = text token
  depthOver : ∀ {token}, leaf token → token.depthOver depth = depth token
  noBranches : ∀ branches, ¬ leaf (.alternation branches)
  starts : ∀ {token}, leaf token → ∃ c more, text token = c :: more ∧ c ≠ '?'
  reads : ∀ {token}, leaf token → ∀ rest, ReadsAs (text token) [token] (depth token) rest

variable {leaf : Token → Prop} {text : Token → List Char} {depth : Token → Nat} {rest : List Char}

theorem le_listDepthOver {token : Token} {tokens : List Token} (h : token ∈ tokens) :
    token.depthOver depth ≤ listDepthOver depth tokens := by
  induction tokens with
  | nil => cases h
  | cons first tokens ih =>
    rw [listDepthOver]
    rcases List.mem_cons.mp h with rfl | h
    · exact Nat.le_max_left _ _
    · exact Nat.le_trans (ih h) (Nat.le_max_right _ _)

theorem le_branchDepthOver {branch : List Token} {branches : List (List Token)}
    (h : branch ∈ branches) : listDepthOver depth branch ≤ branchDepthOver depth branches := by
  induction branches with
  | nil => cases h
  | cons first branches ih =>
    rw [branchDepthOver]
    rcases List.mem_cons.mp h with rfl | h
    · exact Nat.le_max_left _ _
    · exact Nat.le_trans (ih h) (Nat.le_max_right _ _)

theorem branchWritten_cons (branch next : List Token) (branches : List (List Token)) :
    Token.branchWritten text (branch :: next :: branches) =
      Token.listWritten text branch ++ '|' :: Token.branchWritten text (next :: branches) := by
  rw [Token.branchWritten]
  simp

theorem listWritten_alternation (branches : List (List Token)) :
    Token.listWritten text [.alternation branches] = Token.branchWritten text branches := by
  simp [Token.listWritten, Token.written]

namespace ReadableLeaves

theorem exists_written_cons (hl : ReadableLeaves leaf text depth) {token : Token}
    (h : Item leaf token) : ∃ c more, token.written text = c :: more ∧ c ≠ '?' := by
  cases h with
  | leaf h =>
    rw [hl.written h]
    exact hl.starts h
  | @group items _ =>
    rw [Token.written]
    exact ⟨'(', Token.listWritten text items ++ [')'], rfl, by decide⟩
  | repeated _ _ h =>
    obtain ⟨c, more, hc, hn⟩ := hl.exists_written_cons h
    rw [Token.written, hc]
    exact ⟨c, _, rfl, hn⟩

theorem quiet_list (hl : ReadableLeaves leaf text depth) {items : List Token}
    (h : ∀ token ∈ items, Item leaf token) (hr : Quiet rest) :
    Quiet (Token.listWritten text items ++ rest) := by
  cases items with
  | nil =>
    rw [Token.listWritten]
    exact hr
  | cons token items =>
    obtain ⟨c, more, hc, hn⟩ := hl.exists_written_cons (h token List.mem_cons_self)
    rw [Token.listWritten]
    simpa [hc, Quiet] using hn

theorem quiet_branches (hl : ReadableLeaves leaf text depth) {branches : List (List Token)}
    (h : ∀ branch ∈ branches, ∀ token ∈ branch, Item leaf token) (hr : Quiet rest) :
    Quiet (Token.branchWritten text branches ++ rest) := by
  rcases branches with _ | ⟨branch, _ | ⟨next, branches⟩⟩
  · rw [Token.branchWritten]
    exact hr
  · rw [Token.branchWritten]
    exact hl.quiet_list (h branch List.mem_cons_self) hr
  · rw [branchWritten_cons, List.append_assoc]
    exact hl.quiet_list (h branch List.mem_cons_self) (by simp [Quiet])

theorem quiet_content (hl : ReadableLeaves leaf text depth) {items : List Token}
    (h : Content leaf items) (hr : Quiet rest) : Quiet (Token.listWritten text items ++ rest) := by
  cases h with
  | sequence h => exact hl.quiet_list h hr
  | alternation _ h =>
    rw [listWritten_alternation]
    exact hl.quiet_branches h hr

theorem readsAs_list (hl : ReadableLeaves leaf text depth) {items : List Token} {d : Nat}
    (hi : ∀ token ∈ items, Item leaf token)
    (h : ∀ token ∈ items, ∀ rest, Quiet rest → ReadsAs (token.written text) [token] d rest)
    (hr : Quiet rest) : ReadsAs (Token.listWritten text items) items d rest := by
  induction items with
  | nil =>
    rw [Token.listWritten]
    exact ReadsAs.nil
  | cons token items ih =>
    have hi' : ∀ token ∈ items, Item leaf token := fun t ht => hi t (List.mem_cons_of_mem _ ht)
    rw [Token.listWritten]
    exact ReadsAs.append (a := [token]) (h token List.mem_cons_self _ (hl.quiet_list hi' hr))
      (ih hi' fun t ht => h t (List.mem_cons_of_mem _ ht))

end ReadableLeaves

theorem readsAs_branches {branches : List (List Token)} {d : Nat}
    (h : ∀ branch ∈ branches, ∀ rest, Quiet rest →
      ReadsAs (Token.listWritten text branch) branch d rest)
    (hr : Quiet rest) (n : Nesting) (hv : n.isVerbose = false)
    (hd : n.depth + d ≤ Nesting.maxDepth) :
    n.read (Token.branchWritten text branches ++ rest) =
      ({ n with current := n.current.addBranches branches } : Nesting).read rest := by
  induction branches generalizing n with
  | nil =>
    rw [Token.branchWritten]
    rfl
  | cons branch branches ih =>
    have hb := h branch List.mem_cons_self
    cases branches with
    | nil =>
      rw [Token.branchWritten]
      exact hb rest hr n hv hd
    | cons next branches =>
      rw [branchWritten_cons, List.append_assoc, List.cons_append, hb _ (by simp [Quiet]) n hv hd,
        Nesting.read_bar]
      exact ih (fun b hm => h b (List.mem_cons_of_mem _ hm)) _ hv hd

namespace ReadableLeaves

mutual

/-- An item is read back from its text. A repetition must be followed by a quiet text. -/
theorem readsAs_item (hl : ReadableLeaves leaf text depth) {token : Token} :
    Item leaf token → ∀ rest, token.isRepeatable = true ∨ Quiet rest →
      ReadsAs (token.written text) [token] (token.depthOver depth) rest
  | .leaf h, rest, _ => by
    rw [hl.written h, hl.depthOver h]
    exact hl.reads h rest
  | @Item.group _ items h, rest, _ => by
    have hq : Quiet (')' :: rest) := by simp [Quiet]
    rw [Token.written, Token.depthOver]
    refine ReadsAs.enclosed .plain [] (fun _ => rfl) ?_
      (Alternatives.addContent_empty hl.noBranches h).2 (hl.readsAs_content h _ hq)
    exact GroupHeader.read_plain (hl.quiet_content h hq)
  | .repeated (q := q) hq hb h, rest, hr => by
    have hr : q.isLazy = true ∨ Quiet rest := Or.inr (hr.resolve_left (by simp [Token.isRepeatable]))
    rw [Token.written, Token.depthOver]
    exact ReadsAs.repeated hq hb hr (hl.readsAs_item h _ (Or.inl hb))

/-- Content is read back from its text. -/
theorem readsAs_content (hl : ReadableLeaves leaf text depth) {items : List Token} :
    Content leaf items → ∀ rest, Quiet rest →
      ReadsAsContent (Token.listWritten text items) items (listDepthOver depth items) rest
  | .sequence h, rest, hr => by
    have hs : IsSequence items := isSequence_of_items hl.noBranches h
    have hi := hl.readsAs_list h (fun token ht rest hr =>
      (hl.readsAs_item (h token ht) rest (Or.inr hr)).mono (le_listDepthOver ht)) hr
    intro n hv hd
    have he : n.addContent items = n.addAll items :=
      congrArg (fun a => { n with current := a }) (Alternatives.addContent_sequence hs n.current)
    rw [he]
    exact hi n hv hd
  | @Content.alternation _ branches _ h, rest, hr => by
    intro n hv hd
    rw [listWritten_alternation]
    refine readsAs_branches (fun branch hb rest hr => ?_) hr n hv hd
    refine hl.readsAs_list (h branch hb) (fun token ht rest hr => ?_) hr
    refine (hl.readsAs_item (h branch hb token ht) rest (Or.inr hr)).mono ?_
    have hd : branchDepthOver depth branches ≤ listDepthOver depth [.alternation branches] := by
      simp [listDepthOver, Token.depthOver]
    exact Nat.le_trans (le_listDepthOver ht) (Nat.le_trans (le_branchDepthOver hb) hd)

end

end ReadableLeaves

end RegexTypeset
