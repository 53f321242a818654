import FieldLang.Value.Text

/-!
# Positions in Lists and Texts

How built-in functions read positions, and what they cut out between two of them. A position is given
as a value: its number is truncated and clamped to the list, and what is not a number counts as zero.
Two conventions exist for negative ones. They count as zero, or they count from the end.

## Main definitions

* `absolute`, `relative`: The two readings of a position.
* `between`: The elements between two positions.
* `slice`: The part of a list between two relative positions.
* `found`: The value of a position that may not exist.
-/

namespace FieldLang.Position

/-- A position in a list of a given length, where negative ones count as zero. -/
def absolute (length : Nat) (v : Value) : Nat :=
  (Number.toInt 0 length v.toNumber).toNat

/-- A position in a list of a given length, where negative ones count from the end. -/
def relative (length : Nat) (v : Value) : Nat :=
  let n := Number.toInt (-length) length v.toNumber
  if n < 0 then (length + n).toNat else n.toNat

/-- The elements from position `start` up to and not including position `stop`. -/
def between {α : Type} (start stop : Nat) (items : List α) : List α :=
  (items.take stop).drop start

/-- The part of a list between two relative positions; without a second bound up to the end. -/
def slice {α : Type} (items : List α) (start stop : Value) : List α :=
  between (relative items.length start)
    (if stop.isUndefined then items.length else relative items.length stop) items

/-- The value of a position that may not exist. -/
def found : Option Nat → Value
  | some n => .ofNat n
  | none => .number (-1)

end FieldLang.Position
