import RegexTypeset.Proofs.WrittenTrees

/-! # Every tree is read from some text

A character may be written by its code in eight hexadecimal digits, outside classes and
inside them, and then has no other meaning. With literals and the ends of ranges written
like that, each leaf has a text that is read as the leaf whatever follows. So each tree
that a reading may return is read from some text, if its nesting is not too deep.
-/
namespace RegexTypeset

namespace Escape

def hexDigits : Nat → Nat → List Char
  | 0, _ => []
  | size + 1, n => hexDigits size (n / 16) ++ [Nat.digitChar (n % 16)]

theorem digitChar_spec : ∀ d < 16, isHex d.digitChar = true ∧ digitValue d.digitChar = d := by
  decide

theorem length_hexDigits (size n : Nat) : (hexDigits size n).length = size := by
  induction size generalizing n with
  | zero => rfl
  | succ size ih => rw [hexDigits, List.length_append, ih, List.length_singleton]

theorem isHex_hexDigits (size n : Nat) : ∀ d ∈ hexDigits size n, isHex d = true := by
  induction size generalizing n with
  | zero => exact fun d hd => absurd hd List.not_mem_nil
  | succ size ih =>
    intro d hd
    rcases List.mem_append.mp hd with hd | hd
    · exact ih _ d hd
    · rw [List.mem_singleton.mp hd]
      exact (digitChar_spec _ (Nat.mod_lt _ (by decide))).1

theorem value_hexDigits (size n : Nat) : value 16 (hexDigits size n) = n % Nat.pow 16 size := by
  induction size generalizing n with
  | zero => exact (Nat.mod_one n).symm
  | succ size ih =>
    have hd := (digitChar_spec _ (Nat.mod_lt n (by decide : 16 > 0))).2
    have hv : value 16 (hexDigits (size + 1) n) = 16 * value 16 (hexDigits size (n / 16)) + n % 16 := by
      simp only [value, hexDigits, List.foldl_append, List.foldl_cons, List.foldl_nil, hd]
    have hp : Nat.pow 16 (size + 1) = 16 * Nat.pow 16 size := Nat.mul_comm _ _
    rw [hv, ih, hp, Nat.mod_mul, Nat.add_comm]

theorem charOfCode?_toNat (c : Char) : charOfCode? c.toNat = some c := by
  have hv : c.toNat.isValidChar := c.valid
  rw [charOfCode?, if_pos hv, Char.ofNat_toNat]

theorem hex_hexDigits (text : List Char) (marker c : Char) (rest : List Char) :
    hex text marker 8 (hexDigits 8 c.toNat ++ rest) = .ok (c, rest) := by
  have hl := length_hexDigits 8 c.toNat
  have hc : c.toNat < Nat.pow 16 8 := c.val.toNat_lt
  have hv : charOfCode? (value 16 (hexDigits 8 c.toNat)) = some c := by
    rw [value_hexDigits, Nat.mod_eq_of_lt hc, charOfCode?_toNat]
  have ht : ((hexDigits 8 c.toNat ++ rest).take 8).takeWhile isHex = hexDigits 8 c.toNat := by
    rw [List.take_left' hl]
    exact List.takeWhile_eq_self_iff.mpr (isHex_hexDigits 8 c.toNat)
  simp only [hex, ht, hl, if_true, hv, List.drop_left' hl]

def code (c : Char) : List Char := '\\' :: 'U' :: hexDigits 8 c.toNat

theorem item_code (c : Char) (rest : List Char) :
    item ('U' :: (hexDigits 8 c.toNat ++ rest)) = .ok (.literal c, rest) :=
  congrArg literal (hex_hexDigits ('U' :: (hexDigits 8 c.toNat ++ rest)) 'U' c rest)

theorem readsSingle_code (c : Char) : CharClass.ReadsSingle (code c) c :=
  ⟨'\\', _, rfl, by decide, fun rest =>
    congrArg literal (hex_hexDigits ('U' :: (hexDigits 8 c.toNat ++ rest)) 'U' c rest)⟩

end Escape

namespace Construct

def header : Construct → List Char
  | .backreference _ | .negatedClass => []
  | .lookaround ahead negative =>
    '?' :: ((if ahead then [] else ['<']) ++ [if negative then '!' else '='])
  | .conditional group => '?' :: '(' :: (group.toList ++ [')'])

/-- The text of a construct. What it holds is not read, so it holds as little as it may. -/
def text : Construct → List Char
  | .backreference group => '(' :: '?' :: 'P' :: '=' :: (group.toList ++ [')'])
  | .negatedClass => ['[', '^', '^', ']']
  | construct => '(' :: (header construct ++ [')'])

end Construct

namespace Token

def memberText : Token → List Char
  | literal c => Escape.code c
  | category c => c.symbol.toList
  | charRange lo hi => Escape.code lo ++ '-' :: Escape.code hi
  | _ => []

theorem readsMember_memberText {item : Token} (h : item.IsMember) :
    CharClass.ReadsMember item.memberText item := by
  cases item <;> simp only [IsMember] at h
  case literal c => exact (Escape.readsSingle_code c).literal
  case category c => exact CharClass.readsMember_category c
  case charRange lo hi => exact (Escape.readsSingle_code lo).range (Escape.readsSingle_code hi) h

def leafText : Token → List Char
  | literal c => Escape.code c
  | anchor a => a.symbol.toList
  | category c => c.symbol.toList
  | wildcard => ['.']
  | charClass items => '[' :: (items.flatMap memberText ++ [']'])
  | unrendered construct => construct.text
  | _ => []

def leafNesting : Token → Nat
  | unrendered _ => 1
  | _ => 0

end Token

def listNesting (tokens : List Token) : Nat := listDepthOver Token.leafNesting tokens

theorem GroupHeader.named_reference {group : String} (h : IsReference group)
    (lexeme : String → Lexeme) (rest : List Char) :
    named ')' lexeme (group.toList ++ ')' :: rest) = .ok (lexeme group, rest) := by
  have hv : GroupName.isValid ')' group.toList = true := by
    rcases h with h | h <;> simp [GroupName.isValid, h]
  have hn : ')' ∉ group.toList := GroupName.not_mem_of_isValid (by decide +kernel) (by decide) hv
  exact named_eq_ok.mpr ⟨group.toList, rfl, hn, hv, by rw [String.ofList_toList]⟩

theorem readsAs_construct {construct : Construct} (h : construct.IsProper) (rest : List Char) :
    ReadsAs (construct.text) [.unrendered construct] 1 rest := by
  -- an assertion or a condition without content
  have enclosed {construct : Construct}
      (hh : GroupHeader.read (construct.header ++ ')' :: rest) =
        .ok (.opening (.unrendered construct), ')' :: rest)) :
      ReadsAs ('(' :: (construct.header ++ [')'])) [.unrendered construct] 1 rest := by
    have hr : ReadsAs _ [GroupKind.token (.unrendered construct) []] 1 rest :=
      ReadsAs.enclosed (s := []) _ _ (fun _ => rfl) hh rfl fun _ _ _ => rfl
    exact hr
  cases construct with
  | backreference group =>
    refine ReadsAs.lexeme (fun _ => Nat.one_pos) ?_
    have hn := GroupHeader.named_reference h
      (fun name => .item (.unrendered (.backreference name))) rest
    simpa [Lexeme.solid, GroupHeader.read, GroupHeader.extension] using hn
  | lookaround ahead negative => cases ahead <;> cases negative <;> exact enclosed rfl
  | negatedClass =>
    refine ReadsAs.lexeme (fun _ => Nat.one_pos) ?_
    simp [Lexeme.solid, Lexeme.ofToken, CharClass.read, CharClass.members_cons, CharClass.member,
      CharClass.single, CharClass.token, Except.map]
  | conditional group =>
    refine enclosed ?_
    have hn := GroupHeader.named_reference h
      (fun name => .opening (.unrendered (.conditional name))) (')' :: rest)
    simpa [Construct.header, GroupHeader.read, GroupHeader.extension] using hn

/-- Proper leaves are read back from their texts with characters by their codes. -/
theorem readableLeaves_leafText : ReadableLeaves ReadLeaf Token.leafText Token.leafNesting where
  written {token} h := by
    cases token <;> simp only [ReadLeaf] at h <;> simp [Token.written]
  depthOver {token} h := by
    cases token <;> simp only [ReadLeaf] at h <;> simp [Token.depthOver]
  noBranches _ h := h
  starts {token} h := by
    cases token <;> simp only [ReadLeaf] at h
    case literal c => exact ⟨'\\', _, rfl, by decide⟩
    case anchor a => cases a <;> exact ⟨_, _, rfl, by decide⟩
    case charClass items => exact ⟨'[', _, rfl, by decide⟩
    case category c => cases c <;> exact ⟨'\\', _, rfl, by decide⟩
    case wildcard => exact ⟨'.', _, rfl, by decide⟩
    case unrendered construct => cases construct <;> exact ⟨_, _, rfl, by decide⟩
  reads {token} h rest := by
    cases token <;> simp only [ReadLeaf] at h
    case literal c =>
      exact ReadsAs.lexeme (fun he => absurd he (by decide))
        (congrArg Lexeme.ofToken (Escape.item_code c rest))
    case anchor a => cases a <;> exact ReadsAs.lexeme (by decide) rfl
    case charClass items =>
      have hr := CharClass.read_written (fun item hi => Token.readsMember_memberText (h.members item hi))
        h.nonempty h.not_lone rest
      refine ReadsAs.lexeme (fun he => absurd he (by decide)) ?_
      rw [List.append_assoc, List.singleton_append]
      exact congrArg Lexeme.ofToken hr
    case category c => cases c <;> exact ReadsAs.lexeme (by decide) rfl
    case wildcard => exact ReadsAs.lexeme (by decide) rfl
    case unrendered construct => exact readsAs_construct h rest

/-- Content over proper leaves that is not nested too deep is read from some text. -/
theorem exists_read_eq {tokens : List Token} (hc : Content ReadLeaf tokens)
    (hd : listNesting tokens ≤ Nesting.maxDepth) :
    ∃ text, Pattern.read text ∅ = .ok (tokens, ∅) := by
  let text := Token.listWritten Token.leafText tokens
  let n := Nesting.start ∅
  have room : n.depth + listNesting tokens ≤ Nesting.maxDepth := by
    rw [show n.depth = 0 from rfl, Nat.zero_add]
    exact hd
  have hread : n.read text = .ok (n.addContent tokens) := calc
    n.read text = n.read (text ++ []) := by rw [List.append_nil]
    _ = (n.addContent tokens).read [] :=
      readableLeaves_leafText.readsAs_content hc [] (by simp [Quiet]) n (by decide) room
    _ = .ok (n.addContent tokens) := Nesting.read_nil _
  have ht : (Alternatives.empty.addContent tokens).tokens = tokens :=
    (Alternatives.addContent_empty readableLeaves_leafText.noBranches hc).2
  have ho : Pattern.readOnce text ∅ = .ok (tokens, ∅) :=
    Pattern.readOnce_eq_ok.mpr ⟨_, hread, rfl, ht, rfl⟩
  refine ⟨text, ?_⟩
  rw [Pattern.read, ho]
  rfl

theorem exists_read_eq_constructs :
    Content ReadLeaf [.alternation [[.group [.alternation [[], [.literal '\x00']]],
      .repeated ⟨2, some 2, true⟩ (.charClass [.charRange ']' '^', .literal '-', .category .notWord])],
      [.repeated ⟨0, none, false⟩ (.unrendered (.conditional "07")), .unrendered .negatedClass,
        .unrendered (.lookaround false true)]]] ∧
    ∃ text, Pattern.read text ∅ =
      .ok ([.alternation [[.group [.alternation [[], [.literal '\x00']]],
        .repeated ⟨2, some 2, true⟩ (.charClass [.charRange ']' '^', .literal '-', .category .notWord])],
        [.repeated ⟨0, none, false⟩ (.unrendered (.conditional "07")), .unrendered .negatedClass,
          .unrendered (.lookaround false true)]]], ∅) := by
  have hg : Item ReadLeaf (.group [.alternation [[], [.literal '\x00']]]) :=
    .group (.alternation (by simp) (by simpa using .leaf trivial))
  have hk : IsClass [.charRange ']' '^', .literal '-', .category .notWord] :=
    ⟨by simp [Token.IsMember], by simp, by simp⟩
  have hr : Item ReadLeaf (.repeated ⟨2, some 2, true⟩
      (.charClass [.charRange ']' '^', .literal '-', .category .notWord])) :=
    .repeated rfl rfl (.leaf hk)
  have hf : Item ReadLeaf (.repeated ⟨0, none, false⟩ (.unrendered (.conditional "07"))) :=
    .repeated rfl rfl (.leaf (Or.inr (by decide)))
  refine ⟨.alternation (by simp) ?_, exists_read_eq (.alternation (by simp) ?_) (by decide)⟩
  all_goals simpa using ⟨⟨hg, hr⟩, hf, .leaf trivial, .leaf trivial⟩

end RegexTypeset
