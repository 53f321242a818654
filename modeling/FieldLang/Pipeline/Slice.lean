import FieldLang.Pipeline.Error
import FieldLang.Value.Text

/-!
# Slices

The part of a list that a slice stage takes: every `step`-th element from a start up to a stop, or
backwards if the step is negative. Negative bounds count from the end, and bounds outside the list are
moved to its ends. The stop itself is not taken.

The bounds come from numbers and are kept to the range of 64 bits; infinite numbers go to the ends of
that range, and what is not a number to its lower end.

## Main definitions

* `Bounds`: Start, stop and step, each with a default.
* `Bounds.first`, `Bounds.limit`: The bounds resolved against a length.
* `Bounds.count`: How many elements are taken.
* `Bounds.take`: The elements of a slice.
* `Bounds.ofValue`: A bound read from a value.
-/

namespace FieldLang

/-- Start, stop and step of a slice; where one is missing its default is meant. -/
structure Bounds where
  start : Option Int
  stop : Option Int
  step : Option Int

namespace Bounds

/-- A bound of a forward slice of a list: between 0 and its length. -/
def forward (length bound : Int) : Int :=
  if bound < 0 then max (bound + length) 0 else min bound length

/-- A bound of a backward slice of a list: between -1 and its last position. -/
def backward (length bound : Int) : Int :=
  if bound < 0 then max (bound + length) (-1) else min bound (length - 1)

/-- The position of the first element taken. -/
def first (b : Bounds) (length step : Int) : Int :=
  match b.start with
  | some start => if 0 < step then forward length start else backward length start
  | none => if 0 < step then 0 else length - 1

/-- The position before which, or after which if the step is negative, the elements taken lie. -/
def limit (b : Bounds) (length step : Int) : Int :=
  match b.stop with
  | some stop => if 0 < step then forward length stop else backward length stop
  | none => if 0 < step then length else -1

/-- How many multiples of a step lie between a first position and a limit. -/
def count (first limit step : Int) : Nat :=
  if 0 < step then ((limit - first + step - 1) / step).toNat
  else ((first - limit - step - 1) / (-step)).toNat

/-- The elements of a list that a slice takes. A step of zero is refused. -/
def take {α : Type} (b : Bounds) (items : List α) : Except PipelineError (List α) :=
  let step := b.step.getD 1
  if step = 0 then .error (.invalidArgument "Slice step cannot be zero")
  else
    let first := b.first items.length step
    let limit := b.limit items.length step
    .ok ((List.range (count first limit step)).filterMap fun (k : Nat) =>
      items[(first + k * step).toNat]?)

/-- A bound from a number. -/
def ofNumber (n : Float) : Int :=
  if n.isNaN then Number.leastInt64 else Number.toInt Number.leastInt64 Number.greatestInt64 n

/-- A bound from a value; a nullish one asks for the default. -/
def ofValue (name : String) : Value → Except PipelineError (Option Int)
  | .null => .ok none
  | .undefined => .ok none
  | .number n => .ok (some (ofNumber n))
  | v =>
    .error (.invalidArgument ("slice " ++ name ++ " must be a number, got " ++ v.typeName))

end Bounds

end FieldLang
