import RegexTypeset.Proofs.WrittenTrees

/-! # Reading back what is shown

Content over leaves without metacharacters is shown as a text that is read as the same
content again, with the spaces at the edges of a sample as items around it.
-/
namespace RegexTypeset

/-- A mark of a malformed node shows nothing. -/
theorem Piece.flatMap_raw_check (wrong : Bool) (defect : Defect) :
    (Piece.check wrong defect).flatMap Piece.raw = [] := by
  cases wrong <;> rfl

namespace Token

def branchShown (branches : List (List Token)) : List Char := (branchPieces branches).flatMap Piece.raw

theorem branchShown_cons (branch next : List Token) (branches : List (List Token)) :
    branchShown (branch :: next :: branches) =
      listShown branch ++ '|' :: branchShown (next :: branches) := by
  simp [branchShown, branchPieces, listShown, Piece.raw]

theorem shown_group (items : List Token) : (group items).shown = '(' :: (listShown items ++ [')']) := by
  simp [shown, pieces, Piece.raw, listShown]

theorem shown_repeated (q : Quantifier) (body : Token) :
    (repeated q body).shown = body.shown ++ (Piece.quantifier q).flatMap Piece.raw := by
  simp [shown, pieces, Piece.flatMap_raw_check]

theorem shown_alternation (branches : List (List Token)) :
    (alternation branches).shown = branchShown branches := by
  simp [shown, pieces, Piece.flatMap_raw_check, branchShown]

theorem listShown_alternation (branches : List (List Token)) :
    listShown [alternation branches] = branchShown branches := by
  rw [listShown_cons, shown_alternation, listShown_nil, List.append_nil]

mutual

/-- What is shown is written from what is shown of the leaves. -/
theorem written_shown : ∀ token : Token, token.written shown = token.shown
  | .group items => by rw [written, listWritten_shown items, shown_group]
  | .repeated q body => by rw [written, written_shown body, shown_repeated]
  | .alternation branches => by rw [written, branchWritten_shown branches, shown_alternation]
  | .literal _ | .anchor _ | .charClass _ | .charRange _ _ | .category _ | .wildcard
  | .unrendered _ => by simp [written]

theorem listWritten_shown : ∀ items : List Token, listWritten shown items = listShown items
  | [] => by rw [listWritten, listShown_nil]
  | token :: items => by rw [listWritten, written_shown token, listWritten_shown items, listShown_cons]

theorem branchWritten_shown : ∀ branches : List (List Token),
    branchWritten shown branches = branchShown branches
  | [] => by rw [branchWritten]; rfl
  | [branch] => by
    rw [branchWritten, listWritten_shown branch]
    rfl
  | branch :: next :: branches => by
    rw [branchWritten_cons, listWritten_shown branch, branchWritten_shown (next :: branches),
      branchShown_cons]

end

mutual

theorem depthOver_groupDepth : ∀ token : Token, token.depthOver groupDepth = token.groupDepth
  | .group items => by rw [depthOver, listDepthOver_groupDepth items, groupDepth]
  | .repeated _ body => by rw [depthOver, depthOver_groupDepth body, groupDepth]
  | .alternation branches => by rw [depthOver, branchDepthOver_groupDepth branches, groupDepth]
  | .literal _ | .anchor _ | .charClass _ | .charRange _ _ | .category _ | .wildcard
  | .unrendered _ => by simp [depthOver]

theorem listDepthOver_groupDepth : ∀ items : List Token,
    listDepthOver groupDepth items = listGroupDepth items
  | [] => by rw [listDepthOver, listGroupDepth]
  | token :: items => by
    rw [listDepthOver, depthOver_groupDepth token, listDepthOver_groupDepth items, listGroupDepth]

theorem branchDepthOver_groupDepth : ∀ branches : List (List Token),
    branchDepthOver groupDepth branches = branchGroupDepth branches
  | [] => by rw [branchDepthOver, branchGroupDepth]
  | branch :: branches => by
    rw [branchDepthOver, listDepthOver_groupDepth branch, branchDepthOver_groupDepth branches,
      branchGroupDepth]

end

end Token

/-- Leaves without metacharacters are read back from what is shown of them. -/
theorem readableLeaves_shown : ReadableLeaves BareLeaf Token.shown Token.groupDepth where
  written _ := Token.written_shown _
  depthOver _ := Token.depthOver_groupDepth _
  noBranches _ h := h
  starts h := by
    obtain ⟨c, text, hc, hn, -⟩ := Lexeme.solid_leaf h []
    exact ⟨c, text, hc, hn⟩
  reads h rest := by
    obtain ⟨c, text, hc, -, hp, hs⟩ := Lexeme.solid_leaf h rest
    rw [hc]
    exact ReadsAs.lexeme (fun he => absurd he hp) hs

variable {rest : List Char}

theorem quiet_content {items : List Token} (h : Content BareLeaf items) (hr : Quiet rest) :
    Quiet (Token.listShown items ++ rest) := by
  rw [← Token.listWritten_shown]
  exact readableLeaves_shown.quiet_content h hr

/-- Content is read back from its text. -/
theorem readsAs_content {items : List Token} (h : Content BareLeaf items) (rest : List Char)
    (hr : Quiet rest) :
    ReadsAsContent (Token.listShown items) items (listGroupDepth items) rest := by
  rw [← Token.listWritten_shown, ← Token.listDepthOver_groupDepth]
  exact readableLeaves_shown.readsAs_content h rest hr

/-- Spaces at an edge as they are read back: one as a literal, several as a repetition. -/
def edgeItems : Nat → List Token
  | 0 => []
  | 1 => [.literal ' ']
  | n => [.repeated ⟨UInt32.ofNat n, some (UInt32.ofNat n), false⟩ (.literal ' ')]

theorem readsAs_bracketedSpace (rest : List Char) :
    ReadsAs (Piece.bracketedSpace.flatMap Piece.raw) [.literal ' '] 0 rest := by
  have hs : Lexeme.solid '[' ([' ', ']'] ++ rest) = .ok (.item (.literal ' '), rest) := by
    simp [Lexeme.solid, Lexeme.ofToken, CharClass.read, CharClass.members_cons, CharClass.member,
      CharClass.single, CharClass.token, Except.map]
  exact ReadsAs.lexeme (by decide) hs

/-- A number in braces behind a space. -/
theorem readsAs_spaces {n : Nat} (hn : n < UInt32.size) {text : List Char} (hr : Quiet rest)
    (h : ∀ rest, ReadsAs text [.literal ' '] 0 rest) :
    ReadsAs (text ++ (Piece.count n).flatMap Piece.raw)
      [.repeated ⟨UInt32.ofNat n, some (UInt32.ofNat n), false⟩ (.literal ' ')] 0 rest := by
  have hw : (UInt32.ofNat n).toNat = n := UInt32.toNat_ofNat_of_lt hn
  have hq : Piece.quantifier ⟨UInt32.ofNat n, some (UInt32.ofNat n), false⟩ = Piece.count n := by
    have hne : ¬ (UInt32.ofNat n = 0 ∧ UInt32.ofNat n = 1) := by
      rintro ⟨h0, h1⟩
      exact absurd (h0.symm.trans h1) (by decide)
    simp [Piece.quantifier, Piece.bounds, hne, hw]
  rw [← hq]
  exact ReadsAs.repeated (by simp [Quantifier.isReversed]) rfl (Or.inr hr) (h _)

theorem readsAs_leadingPieces {n : Nat} (hn : n < UInt32.size) (hr : Quiet rest) :
    ReadsAs ((Sample.leadingPieces n).flatMap Piece.raw) (edgeItems n) 0 rest := by
  rcases n with _ | _ | n
  · exact ReadsAs.nil
  · exact readsAs_bracketedSpace rest
  · have he : Sample.leadingPieces (n + 2) = Piece.bracketedSpace ++ Piece.count (n + 2) := rfl
    rw [he, List.flatMap_append]
    exact readsAs_spaces hn hr readsAs_bracketedSpace

theorem readsAs_trailingPieces {n : Nat} (hn : n < UInt32.size) (hr : Quiet rest) :
    ReadsAs ((Sample.trailingPieces n).flatMap Piece.raw) (edgeItems n) 0 rest := by
  rcases n with _ | _ | n
  · exact ReadsAs.nil
  · exact readsAs_bracketedSpace rest
  · have hs (rest : List Char) : ReadsAs [' '] [.literal ' '] 0 rest :=
      ReadsAs.lexeme (by decide) rfl
    exact readsAs_spaces hn hr hs

theorem quiet_trailingPieces (n : Nat) : Quiet ((Sample.trailingPieces n).flatMap Piece.raw) := by
  rcases n with _ | _ | n <;> simp [Sample.trailingPieces, Piece.bracketedSpace, Piece.raw, Quiet]

theorem Token.IsBareMember.isMember {item : Token} (h : item.IsBareMember) : item.IsMember := by
  cases item <;> simp only [Token.IsBareMember] at h <;> simp only [Token.IsMember]
  exact h.1

theorem isText_of_bareLeaf {token : Token} (h : BareLeaf token) :
    ∀ p ∈ token.pieces, p.isText = true := by
  cases token <;> simp only [BareLeaf] at h
  case charClass items =>
    have hn : items ≠ [] := by
      rintro rfl
      simp at h
    exact fun p hp => Token.isText_of_mem_charClass (fun item hi => (h.1 item hi).isMember) hn hp
  all_goals simp [Token.pieces, Piece.literal, Piece.isText]

/-- The alternatives at the end of a reading between the spaces at the edges. -/
theorem tokens_addContent {tokens : List Token} (hc : Content BareLeaf tokens)
    (before after : List Token) :
    (((Alternatives.empty.addAll before).addContent tokens).addAll after).tokens =
      surround before after tokens := by
  have he : Alternatives.empty.addAll before = Alternatives.empty.precede before := by
    simp [Alternatives.empty, Alternatives.addAll, Alternatives.precede]
  obtain ⟨hp, ht⟩ := Alternatives.addContent_empty (fun _ hl => hl) hc
  rw [he, Alternatives.precede_addContent, Alternatives.tokens_surround hp, ht]

/-- The plain rendering of a sample is the text of its content between that of its edges. -/
theorem renderSample_plain {tokens : List Token} (hc : Content BareLeaf tokens)
    (leading trailing : Nat) (strict : Bool) (given : Flags) :
    (Renderer.ofTarget .plain strict).renderSample ⟨tokens, ⟨leading, trailing⟩, given⟩ =
      .ok (String.ofList ((Sample.leadingPieces leading).flatMap Piece.raw ++
        (Token.listShown tokens ++ (Sample.trailingPieces trailing).flatMap Piece.raw))) := by
  refine (renderPieces_plain strict fun p hp => ?_).trans ?_
  · simp only [Sample.pieces, List.mem_append] at hp
    rcases hp with (hp | hp) | hp
    · exact isText_leadingPieces leading p hp
    · exact pieces_of_content (fun _ h => h) (fun _ h => isText_of_bareLeaf h) hc p hp
    · exact isText_trailingPieces trailing p hp
  · simp [Sample.pieces, Token.listShown]

/-- A sample without metacharacters is rendered as a text that is read as its content with
the spaces around it. -/
theorem read_renderSample {tokens : List Token} (hc : Content BareLeaf tokens)
    (hd : listGroupDepth tokens ≤ Nesting.maxDepth) {leading trailing : Nat}
    (hl : leading < UInt32.size) (ht : trailing < UInt32.size) {flags : Flags}
    (hf : flags.has .verbose = false) (strict : Bool) (given : Flags) :
    ∃ out, (Renderer.ofTarget .plain strict).renderSample ⟨tokens, ⟨leading, trailing⟩, given⟩ = .ok out ∧
      Pattern.read out.toList flags =
        .ok (surround (edgeItems leading) (edgeItems trailing) tokens, flags) := by
  let after := (Sample.trailingPieces trailing).flatMap Piece.raw
  let text := (Sample.leadingPieces leading).flatMap Piece.raw ++ (Token.listShown tokens ++ after)
  let n₀ := Nesting.start flags
  let n₁ := n₀.addAll (edgeItems leading)
  let n₂ := n₁.addContent tokens
  let n₃ := n₂.addAll (edgeItems trailing)
  have room : n₀.depth + 0 ≤ Nesting.maxDepth := Nat.zero_le _
  have hq : Quiet after := quiet_trailingPieces trailing
  have hread : n₀.read text = .ok n₃ := calc
    n₀.read text = n₁.read (Token.listShown tokens ++ after) :=
      readsAs_leadingPieces hl (quiet_content hc hq) n₀ hf room
    _ = n₂.read after := readsAs_content hc after hq n₁ hf (by
      rw [show n₁.depth = 0 from rfl, Nat.zero_add]
      exact hd)
    _ = n₂.read (after ++ []) := by rw [List.append_nil]
    _ = n₃.read [] := readsAs_trailingPieces ht (by simp [Quiet]) n₂ hf room
    _ = .ok n₃ := Nesting.read_nil n₃
  refine ⟨String.ofList text, renderSample_plain hc leading trailing strict given, ?_⟩
  have hx : Pattern.rereads flags flags = false := by simp [Pattern.rereads, hf]
  have ho : Pattern.readOnce text flags =
      .ok (surround (edgeItems leading) (edgeItems trailing) tokens, flags) := by
    rw [Pattern.readOnce, hread, ← tokens_addContent hc]
    rfl
  rw [String.toList_ofList, Pattern.read, ho]
  simp [hx]

theorem read_renderSample_branches :
    Content BareLeaf [.alternation [[.group [.literal '\t']],
      [.repeated ⟨0, some 1, false⟩ (.charClass [.charRange 'a' 'z', .category .digit])], []]] ∧
    ∃ out, (Renderer.ofTarget .plain true).renderSample
        ⟨[.alternation [[.group [.literal '\t']],
          [.repeated ⟨0, some 1, false⟩ (.charClass [.charRange 'a' 'z', .category .digit])], []]],
          ⟨1, 3⟩, ∅⟩ = .ok out ∧
      Pattern.read out.toList .dotAll =
        .ok ([.alternation [[.literal ' ', .group [.literal '\t']],
          [.repeated ⟨0, some 1, false⟩ (.charClass [.charRange 'a' 'z', .category .digit])],
          [.repeated ⟨3, some 3, false⟩ (.literal ' ')]]], .dotAll) := by
  have hg : Item BareLeaf (.group [.literal '\t']) :=
    .group (.sequence (by simpa using .leaf (by simp [BareLeaf, metacharacters])))
  have hr : Item BareLeaf
      (.repeated ⟨0, some 1, false⟩ (.charClass [.charRange 'a' 'z', .category .digit])) :=
    .repeated rfl rfl (.leaf ⟨by simp [Token.IsBareMember, classMarks], Or.inl (by simp)⟩)
  have hc : Content BareLeaf [.alternation [[.group [.literal '\t']],
      [.repeated ⟨0, some 1, false⟩ (.charClass [.charRange 'a' 'z', .category .digit])], []]] :=
    .alternation (by simp) (by simpa using ⟨hg, hr⟩)
  exact ⟨hc, read_renderSample hc (by decide) (by decide) (by decide) (by decide) true ∅⟩

end RegexTypeset
