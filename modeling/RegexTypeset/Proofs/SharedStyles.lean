import RegexTypeset.Target

/-! # Shared styles

Two slots share their style exactly if it comes from the same place: from the same row of the
palette as it was at first, or from the same edit that put it in. A slot that shares a style has
the one that its source had then, whatever becomes of the source. An edit of a slot changes no
other slot.
-/
namespace RegexTypeset.Palette

variable {p base : Palette}

inductive IsBase : Palette → Prop
  | rows (row : Slot → Nat) (paint : Nat → Paint) : IsBase (ofRows row paint)
  | target (target : Target) : IsBase target.palette

def IsFilled (p : Palette) : Prop := ∀ slot, p.row slot < p.rows

theorem le_foldl_max {n start : Nat} {numbers : List Nat} (h : n ≤ start ∨ n ∈ numbers) :
    n ≤ numbers.foldl Nat.max start := by
  induction numbers generalizing start with
  | nil => exact h.resolve_right List.not_mem_nil
  | cons m numbers ih =>
    apply ih
    rcases h with h | h
    · exact Or.inl (Nat.le_trans h (Nat.le_max_left _ _))
    · rcases List.mem_cons.mp h with rfl | h
      · exact Or.inl (Nat.le_max_right _ _)
      · exact Or.inr h

theorem isFilled_ofRows (row : Slot → Nat) (paint : Nat → Paint) : (ofRows row paint).IsFilled := by
  intro slot
  exact le_foldl_max (Or.inr (List.mem_map_of_mem slot.mem_all))

def Edit.slot? : Edit → Option Slot
  | .withStyle slot _ => some slot
  | .share slot _ => some slot
  | .withWrap _ => none

def editAll (p : Palette) (edits : List Edit) : Palette := edits.foldl edit p

theorem IsFilled.edit (h : p.IsFilled) (e : Edit) : (p.edit e).IsFilled := by
  intro other
  cases e with
  | withStyle slot paint =>
    show replace p.row slot p.rows other < p.rows + 1
    unfold replace
    split
    · exact Nat.lt_succ_self _
    · exact Nat.lt_succ_of_lt (h other)
  | share slot source =>
    show replace p.row slot (p.row source) other < p.rows
    unfold replace
    split
    · exact h source
    · exact h other
  | withWrap wrap => exact h other

theorem IsFilled.editAll (h : p.IsFilled) (edits : List Edit) : (p.editAll edits).IsFilled := by
  induction edits generalizing p with
  | nil => exact h
  | cons e edits ih => exact ih (h.edit e)

theorem IsBase.isFilled (h : IsBase base) : base.IsFilled := by
  cases h with
  | rows row paint => exact isFilled_ofRows row paint
  | target target =>
    cases target with
    | plain => exact isFilled_ofRows _ _
    | html => exact (isFilled_ofRows _ _).edit (.withWrap _)
    | latex => exact (isFilled_ofRows _ _).edit (.withWrap _)
    | terminal =>
      exact (isFilled_ofRows _ _).editAll [.share .repetitionBrace .anchor,
        .share .alternation .anchor, .share .wildcard .anchor, .share .category .group]

theorem row_edit {e : Edit} {other : Slot} (ho : e.slot? ≠ some other) :
    (p.edit e).row other = p.row other := by
  cases e with
  | withStyle slot paint => exact if_neg fun he => ho (congrArg some he.symm)
  | share slot source => exact if_neg fun he => ho (congrArg some he.symm)
  | withWrap wrap => rfl

/-- An edit leaves the styles of other slots as they are. -/
theorem style_edit (h : p.IsFilled) {e : Edit} {other : Slot} (ho : e.slot? ≠ some other) :
    (p.edit e).style other = p.style other := by
  funext text
  have hr := row_edit (p := p) ho
  cases e with
  | withStyle slot paint =>
    -- the new row is none that is used
    have hn : p.row other ≠ p.rows := Nat.ne_of_lt (h other)
    show (p.edit (.withStyle slot paint)).paint _ text = _
    rw [hr]
    exact congrFun (if_neg hn) text
  | share slot source =>
    show p.paint _ text = _
    rw [hr]
    rfl
  | withWrap wrap => rfl

theorem style_editAll (h : p.IsFilled) {edits : List Edit} {other : Slot}
    (ho : ∀ e ∈ edits, e.slot? ≠ some other) : (p.editAll edits).style other = p.style other := by
  induction edits generalizing p with
  | nil => rfl
  | cons e edits ih =>
    obtain ⟨he, hs⟩ := List.forall_mem_cons.mp ho
    exact (ih (h.edit e) hs).trans (style_edit h he)

/-- What put a style in: a row of the table at first, or an edit by its number. -/
inductive Origin where
  | base (row : Nat)
  | edit (number : Nat)
deriving DecidableEq, Repr

/-- The origin of the style of a slot, found back through the edits from the latest one on. A
slot that shares a style has the one that its source had before. -/
def origin (row : Slot → Nat) : List Edit → Slot → Origin
  | [], slot => .base (row slot)
  | .withStyle changed _ :: earlier, slot =>
    if slot = changed then .edit earlier.length else origin row earlier slot
  | .share changed source :: earlier, slot =>
    if slot = changed then origin row earlier source else origin row earlier slot
  | .withWrap _ :: earlier, slot => origin row earlier slot

def Origin.paint (base : Palette) (edits : List Edit) : Origin → Paint
  | .base row => base.paint row
  | .edit number =>
    match edits[number]? with
    | some (.withStyle _ paint) => paint
    | _ => id

def Origin.IsUpTo (edits : List Edit) : Origin → Prop
  | .base _ => True
  | .edit number => number < edits.length

theorem Origin.paint_append {o : Origin} {edits : List Edit} (h : o.IsUpTo edits)
    (later : List Edit) : o.paint base (edits ++ later) = o.paint base edits := by
  cases o with
  | base row => rfl
  | edit number =>
    have hn : (edits ++ later)[number]? = edits[number]? := List.getElem?_append_left h
    simp only [Origin.paint, hn]

theorem Origin.IsUpTo.append {o : Origin} {edits : List Edit} (h : o.IsUpTo edits)
    (later : List Edit) : o.IsUpTo (edits ++ later) := by
  cases o with
  | base row => exact trivial
  | edit number => exact Nat.lt_of_lt_of_le h (List.prefix_append edits later).length_le

theorem isUpTo_origin (row : Slot → Nat) (history : List Edit) (slot : Slot) :
    (origin row history slot).IsUpTo history.reverse := by
  induction history generalizing slot with
  | nil => exact trivial
  | cons e earlier ih =>
    rw [List.reverse_cons]
    cases e with
    | withStyle changed paint =>
      unfold origin
      split
      · simp [Origin.IsUpTo]
      · exact (ih slot).append _
    | share changed source =>
      unfold origin
      split
      · exact (ih source).append _
      · exact (ih slot).append _
    | withWrap wrap => exact (ih slot).append _

/-- The rows and styles of a palette tell the origins, after edits that stand with the latest one
first. -/
structure Traces (base : Palette) (history : List Edit) (p : Palette) : Prop where
  isFilled : p.IsFilled
  row_eq_iff : ∀ a b,
    p.row a = p.row b ↔ origin base.row history a = origin base.row history b
  style_eq : ∀ slot, p.style slot = (origin base.row history slot).paint base history.reverse

variable {history : List Edit}

theorem IsBase.traces (h : IsBase base) : base.Traces [] base where
  isFilled := h.isFilled
  row_eq_iff _ _ := ⟨congrArg Origin.base, Origin.base.inj⟩
  style_eq _ := rfl

/-- A new style has a new row and a new origin. -/
theorem Traces.withStyle (h : base.Traces history p) (changed : Slot) (paint : Paint) :
    base.Traces (.withStyle changed paint :: history) (p.withStyle changed paint) where
  isFilled := h.isFilled.edit (.withStyle changed paint)
  row_eq_iff a b := by
    have new_row (other : Slot) : p.rows ≠ p.row other := (Nat.ne_of_lt (h.isFilled other)).symm
    have new_origin (other : Slot) : Origin.edit history.length ≠ origin base.row history other := by
      intro ho
      have hn := isUpTo_origin base.row history other
      rw [← ho, Origin.IsUpTo, List.length_reverse] at hn
      exact Nat.lt_irrefl _ hn
    show replace p.row changed p.rows a = replace p.row changed p.rows b ↔ _
    unfold replace origin
    by_cases ha : a = changed <;> by_cases hb : b = changed
    · simp only [ha, hb]
    · simp only [if_pos ha, if_neg hb, new_row b, new_origin b]
    · simp only [if_neg ha, if_pos hb, (new_row a).symm, (new_origin a).symm]
    · simpa only [if_neg ha, if_neg hb] using h.row_eq_iff a b
  style_eq slot := by
    unfold origin
    by_cases hs : slot = changed
    · rw [if_pos hs, hs]
      funext text
      simp [style, Palette.withStyle, replace, Origin.paint]
    · rw [if_neg hs, List.reverse_cons, Origin.paint_append (isUpTo_origin ..), ← h.style_eq slot]
      exact style_edit h.isFilled (e := .withStyle changed paint) fun he => hs (Option.some.inj he).symm

/-- Both the row and the origin are the ones of the source. -/
theorem Traces.share (h : base.Traces history p) (changed source : Slot) :
    base.Traces (.share changed source :: history) (p.share changed source) := by
  have row_eq (slot : Slot) :
      (p.share changed source).row slot = p.row (if slot = changed then source else slot) :=
    (apply_ite p.row ..).symm
  have origin_eq (slot : Slot) : origin base.row (.share changed source :: history) slot =
      origin base.row history (if slot = changed then source else slot) :=
    (apply_ite (origin base.row history) ..).symm
  refine ⟨h.isFilled.edit (.share changed source), fun a b => ?_, fun slot => ?_⟩
  · rw [row_eq, row_eq, origin_eq, origin_eq]
    exact h.row_eq_iff _ _
  · rw [origin_eq, List.reverse_cons, Origin.paint_append (isUpTo_origin ..), ← h.style_eq]
    funext text
    exact congrArg (p.paint · text) (row_eq slot)

theorem Traces.edit (h : base.Traces history p) (e : Edit) :
    base.Traces (e :: history) (p.edit e) := by
  cases e with
  | withStyle changed paint => exact h.withStyle changed paint
  | share changed source => exact h.share changed source
  | withWrap wrap =>
    refine ⟨h.isFilled, h.row_eq_iff, fun slot => ?_⟩
    show p.style slot = (origin base.row history slot).paint base _
    rw [List.reverse_cons, Origin.paint_append (isUpTo_origin ..)]
    exact h.style_eq slot

theorem Traces.editAll (h : base.Traces history p) (edits : List Edit) :
    base.Traces (edits.reverse ++ history) (p.editAll edits) := by
  induction edits generalizing p history with
  | nil => exact h
  | cons e edits ih =>
    rw [List.reverse_cons, List.append_assoc]
    exact ih (h.edit e)

theorem shares_iff (a b : Slot) : p.shares a b = true ↔ p.row a = p.row b := beq_iff_eq

theorem equivalence_shares (p : Palette) : Equivalence fun a b => p.shares a b = true := by
  simp only [shares_iff]
  exact ⟨fun _ => rfl, Eq.symm, Eq.trans⟩

/-- A slot keeps the style that it shares until it is edited itself. -/
theorem style_share_editAll (h : p.IsFilled) {slot : Slot} (source : Slot) {later : List Edit}
    (hl : ∀ e ∈ later, e.slot? ≠ some slot) :
    ((p.share slot source).editAll later).style slot = p.style source := by
  have hs : ((p.share slot source).editAll later).style slot = (p.share slot source).style slot :=
    style_editAll (h.edit (.share slot source)) hl
  rw [hs]
  funext text
  exact congrArg (p.paint · text) (if_pos rfl)

/-- After any edits of a palette: slots share a style exactly if it has the same origin, and then
they show every text alike; each slot shows what its origin put in. A shared style stays with the
slot whatever is done to its source and to others. An edit of a slot changes no other slot and not
the wrap, and a new wrap no slot. -/
theorem editAll_shares (hb : IsBase base) (edits : List Edit) :
    let p := base.editAll edits
    let origin := origin base.row edits.reverse
    (Equivalence fun a b => p.shares a b = true) ∧
      (∀ a b, p.shares a b = true ↔ origin a = origin b) ∧
      (∀ slot, p.style slot = (origin slot).paint base edits) ∧
      (∀ a b, p.shares a b = true → ∀ text, p.style a text = p.style b text) ∧
      (∀ slot source later, (∀ e ∈ later, e.slot? ≠ some slot) →
        ((p.share slot source).editAll later).style slot = p.style source) ∧
      (∀ e other, e.slot? ≠ some other → (p.edit e).style other = p.style other) ∧
      (∀ e a b, e.slot? ≠ some a → e.slot? ≠ some b → (p.edit e).shares a b = p.shares a b) ∧
      ∀ e slot, e.slot? = some slot → (p.edit e).wrap = p.wrap := by
  intro p origin
  have traces : base.Traces (edits.reverse ++ []) p := hb.traces.editAll edits
  rw [List.append_nil] at traces
  refine ⟨equivalence_shares p, fun a b => ?_, fun slot => ?_, fun a b h text => ?_,
    fun slot source later hl => style_share_editAll traces.isFilled source hl,
    fun e other ho => style_edit traces.isFilled ho, fun e a b ha hb => ?_, fun e slot he => ?_⟩
  · exact (shares_iff a b).trans (traces.row_eq_iff a b)
  · simpa only [List.reverse_reverse] using traces.style_eq slot
  · exact congrArg (p.paint · text) ((shares_iff a b).mp h)
  · unfold shares
    rw [row_edit ha, row_edit hb]
  · cases e with
    | withStyle changed paint => rfl
    | share changed source => rfl
    | withWrap wrap => simp [Edit.slot?] at he

/-- For a terminal, when literals share the style of groups, groups get one of their own and
characters share that one. -/
theorem editAll_shares_terminal :
    let edits : List Edit :=
      [.share .literal .group, .withStyle .group fun raw => "<" ++ raw ++ ">",
        .share .charClass .group]
    let p := terminal.editAll edits
    IsBase terminal ∧ p.shares .charClass .group = true ∧ p.shares .literal .group = false ∧
      p.shares .literal .category = true ∧ p.style .literal "a" = "\x1b[93ma\x1b[39m" ∧
      p.style .charClass "a" = "<a>" := by
  intro edits p
  have hb : IsBase terminal := .target .terminal
  obtain ⟨-, shares_iff_origin, style_eq, -, -, -, -, -⟩ := editAll_shares hb edits
  refine ⟨hb, (shares_iff_origin _ _).mpr (by decide), ?_, (shares_iff_origin _ _).mpr (by decide),
    ?_, ?_⟩
  · exact Bool.eq_false_iff.mpr fun h => absurd ((shares_iff_origin _ _).mp h) (by decide)
  · exact (congrFun (style_eq .literal) "a").trans (by decide)
  · exact (congrFun (style_eq .charClass) "a").trans (by decide)

end RegexTypeset.Palette
