import FieldLang.Builtin.Basic
import FieldLang.Builtin.Error
import FieldLang.Elements
import FieldLang.Value.Equality
import FieldLang.Value.Text

/-!
# Array Built-ins

Functions on arrays. None changes its argument. Those that take a function call it with the element,
its position and the whole array; a reducer gets the accumulated value in front of these, and a
comparator two elements.

Without a comparator arrays are sorted by number where both sides are numbers and by plain text
otherwise. That is not a total order on every array: 10 comes before the text 5 and that before 9,
but 10 comes after 9, and what is not a number is tied with every number. Where an order is not
total the result of a library sort is unspecified, and the sort may fail altogether. `List.mergeSort`
stands for it here, so `sorted` is to be relied on only where the order is total on the elements.

## Main definitions

* `require`: The elements of an array, or the refusal of anything else.
* `flatten`: An array with nested arrays spliced in, to a number of levels.
* `includes`, `indexOf`, `lastIndexOf`: Where a value occurs.
* `compare`, `sorted`: The default order, and sorting by it.
* `withCallback`: The functions that call another.
-/

namespace FieldLang.Arrays

/-- The elements of an array. Any other value is refused in the name of a function. -/
def require (function : Builtin) : Value → Except FunctionError (List Value)
  | .array items => .ok items
  | v => .error (.expectedArray function.name v.typeName)

mutual

/-- What an element contributes to a flattened array: an array is spliced in as long as levels are
    left, where `none` stands for all levels. -/
def flattenItem (levels : Option Nat) : Value → List Value
  | .array items =>
    match levels with
    | some 0 => [.array items]
    | some (n + 1) => flatten (some n) items
    | none => flatten none items
  | v => [v]

/-- An array with the arrays in it spliced in, to a number of levels. -/
def flatten (levels : Option Nat) : List Value → List Value
  | [] => []
  | v :: vs => flattenItem levels v ++ flatten levels vs

end

/-- The number of levels that a value asks for: one if it is undefined, none if it is negative or not
    a number, and all if it is infinite. -/
def levels (depth : Value) : Option Nat :=
  if depth.isUndefined then some 1
  else if depth.toNumber == Number.infinity then none
  else some (Number.truncated depth.toNumber).toNat

/-- Whether two values are the same for membership, where what is not a number equals itself. -/
def sameElement : Value → Value → Bool
  | .number a, .number b => a == b || (a.isNaN && b.isNaN)
  | a, b => a.equal b

/-- Whether a value occurs in a list. -/
def includes (items : List Value) (v : Value) : Bool :=
  items.any (sameElement · v)

/-- The first position of a value in a list. -/
def indexOf (items : List Value) (v : Value) : Option Nat :=
  items.findIdx? (·.equal v)

/-- The last position of a value in a list that starts at `position`. -/
def lastIndexFrom (v : Value) : (position : Nat) → List Value → Option Nat
  | _, [] => none
  | position, w :: ws =>
    (lastIndexFrom v (position + 1) ws).or (if w.equal v then some position else none)

/-- The last position of a value in a list. -/
def lastIndexOf (items : List Value) (v : Value) : Option Nat :=
  lastIndexFrom v 0 items

/-- The order of two numbers; one that is not a number counts as equal to all. -/
def compareNumbers (a b : Float) : Ordering :=
  if a < b then .lt else if b < a then .gt else .eq

/-- The default order: by number between numbers, by plain text otherwise. -/
def compare : Value → Value → Ordering
  | .number a, .number b => compareNumbers a b
  | a, b => Ord.compare a.text b.text

/-- The list sorted by the default order, if that is total on its elements; equal elements keep their
    order. -/
def sorted (items : List Value) : List Value :=
  items.mergeSort fun a b => compare a b != .gt

/-- The order that a comparator's result stands for, by its sign. -/
def orderOf (v : Value) : Ordering :=
  let n := v.toNumber
  if n > 0 then .gt else if n < 0 then .lt else .eq

variable {m : Type → Type} [Monad m]

/-- A function that calls another on the elements of an array. `call` is the function given, and
    `initial` the value from which a reduction starts; without one it starts from the first element,
    and `refuse` answers for an array that has none. Only the functions that take a callback are
    meant. -/
def withCallback (function : Builtin) (call : List Value → m Value) (refuse : FunctionError → m Value)
    (items : List Value) (initial : Option Value) : m Value :=
  let visit := fun (position : Nat) (v : Value) => call [v, .ofNat position, .array items]
  let step := fun (total : Value) (position : Nat) (v : Value) =>
    call [total, v, .ofNat position, .array items]
  match function with
  | .map => do return .array (← Elements.transform visit 0 items)
  | .filter => do return .array (← Elements.select visit 0 items)
  | .find => do return (← Elements.search visit 0 items).getD .undefined
  | .some => do return .bool (← Elements.any visit 0 items)
  | .every => do return .bool (← Elements.all visit 0 items)
  | .flatMap => do return .array (← Elements.splice visit 0 items)
  | .sort => do
    return .array (← Elements.sort (fun a b => do return orderOf (← call [a, b])) items)
  | .reduce =>
    match initial, items with
    | some total, items => Elements.accumulate step total 0 items
    | none, v :: vs => Elements.accumulate step v 1 vs
    | none, [] => refuse (.type "reduce of empty array with no initial value")
  | function => refuse (.runtime (function.name ++ " requires a function argument"))

end FieldLang.Arrays
