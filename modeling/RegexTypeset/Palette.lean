import RegexTypeset.Slot

/-! # Palettes

A palette gives each slot a style and has a rule to wrap the finished rendering. The
styles stand in a table, and each slot uses one row of it. Slots that use the same row
share their style; a style that is put in gets a new row, so no other slot changes.
-/
namespace RegexTypeset

abbrev Paint := String → String

structure Palette where
  row : Slot → Nat
  paint : Nat → Paint
  rows : Nat
  wrap : Paint

namespace Palette

def replace {α β : Type} [DecidableEq α] (f : α → β) (a : α) (b : β) : α → β :=
  fun x => if x = a then b else f x

def ofRows (row : Slot → Nat) (paint : Nat → Paint) : Palette :=
  { row := row
    paint := paint
    rows := (Slot.all.map fun slot => row slot + 1).foldl Nat.max 0
    wrap := id }

def ofSlots (paint : Slot → Paint) : Palette :=
  ofRows Slot.index fun row =>
    match Slot.all[row]? with
    | some slot => paint slot
    | none => id

def uniform (paint : Paint) : Palette := ofRows (fun _ => 0) fun _ => paint

/-- Give a slot a style that no other slot has. -/
def withStyle (p : Palette) (slot : Slot) (paint : Paint) : Palette :=
  { p with
    row := replace p.row slot p.rows
    paint := replace p.paint p.rows paint
    rows := p.rows + 1 }

/-- Let a slot share the style that another one has now. -/
def share (p : Palette) (slot source : Slot) : Palette :=
  { p with row := replace p.row slot (p.row source) }

def withWrap (p : Palette) (wrap : Paint) : Palette := { p with wrap := wrap }

def style (p : Palette) (slot : Slot) (raw : String) : String := p.paint (p.row slot) raw

def shares (p : Palette) (a b : Slot) : Bool := p.row a == p.row b

def representative (p : Palette) (slot : Slot) : Slot :=
  (Slot.all.find? fun other => p.shares other slot).getD slot

inductive Edit where
  | withStyle (slot : Slot) (paint : Paint)
  | share (slot source : Slot)
  | withWrap (wrap : Paint)

def edit (p : Palette) : Edit → Palette
  | .withStyle slot paint => p.withStyle slot paint
  | .share slot source => p.share slot source
  | .withWrap wrap => p.withWrap wrap

end Palette

end RegexTypeset
