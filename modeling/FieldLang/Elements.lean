import FieldLang.Value.Basic

/-!
# Working through the Elements of an Array

The loops that built-in functions and pipeline stages run over an array. Each visits the elements from
the first on and hands a function the position and the element; the function may fail or leave a trace,
so the loops are written for any monad. They stop at the first failure, and those that look for
something stop once they know the answer.

The tail of an array starts at some position, so every loop takes the position of its first element.

## Main definitions

* `transform`: The results of all elements.
* `select`: The elements whose result is truthy.
* `search`, `any`, `all`: The first such element, whether there is one, whether all are.
* `accumulate`: The elements folded into one value from the left.
* `splice`: The results of all elements, where an array stands for its elements.
* `merge`, `sort`: Stable merge sort by a comparison.
-/

namespace FieldLang.Elements

variable {m : Type → Type} [Monad m]

/-- The results of all elements. -/
def transform (f : Nat → Value → m Value) : (position : Nat) → List Value → m (List Value)
  | _, [] => pure []
  | position, v :: vs => do
    let w ← f position v
    let ws ← transform f (position + 1) vs
    return w :: ws

/-- The elements whose result is truthy. -/
def select (f : Nat → Value → m Value) : (position : Nat) → List Value → m (List Value)
  | _, [] => pure []
  | position, v :: vs => do
    let keep ← f position v
    let ws ← select f (position + 1) vs
    return if keep.isTruthy then v :: ws else ws

/-- The first element whose result is truthy. -/
def search (f : Nat → Value → m Value) : (position : Nat) → List Value → m (Option Value)
  | _, [] => pure none
  | position, v :: vs => do
    let found ← f position v
    if found.isTruthy then return some v else search f (position + 1) vs

/-- Whether some element has a truthy result. -/
def any (f : Nat → Value → m Value) : (position : Nat) → List Value → m Bool
  | _, [] => pure false
  | position, v :: vs => do
    let found ← f position v
    if found.isTruthy then return true else any f (position + 1) vs

/-- Whether all elements have truthy results. -/
def all (f : Nat → Value → m Value) : (position : Nat) → List Value → m Bool
  | _, [] => pure true
  | position, v :: vs => do
    let holds ← f position v
    if holds.isTruthy then all f (position + 1) vs else return false

/-- The elements folded into one value from the left. -/
def accumulate (f : Value → Nat → Value → m Value) :
    (total : Value) → (position : Nat) → List Value → m Value
  | total, _, [] => pure total
  | total, position, v :: vs => do
    let total ← f total position v
    accumulate f total (position + 1) vs

/-- What a result contributes to a spliced list: an array its elements, any other value itself. -/
def spliced : Value → List Value
  | .array items => items
  | v => [v]

/-- The results of all elements, where an array stands for its elements. -/
def splice (f : Nat → Value → m Value) : (position : Nat) → List Value → m (List Value)
  | _, [] => pure []
  | position, v :: vs => do
    let w ← f position v
    let ws ← splice f (position + 1) vs
    return spliced w ++ ws

/-- Two lists merged into one. The head of the right list goes first only if the comparison puts the
    head of the left list after it. -/
def merge (compare : Value → Value → m Ordering) : List Value → List Value → m (List Value)
  | [], bs => pure bs
  | as, [] => pure as
  | a :: as, b :: bs => do
    let order ← compare a b
    if order = .gt then
      let rest ← merge compare (a :: as) bs
      return b :: rest
    else
      let rest ← merge compare as (b :: bs)
      return a :: rest
termination_by as bs => as.length + bs.length

/-- The list sorted by merging its sorted halves. The comparison need not be consistent: the result is
    always made of the elements. -/
def sort (compare : Value → Value → m Ordering) (items : List Value) : m (List Value) :=
  if h : items.length ≤ 1 then pure items
  else do
    let left ← sort compare (items.take (items.length / 2))
    let right ← sort compare (items.drop (items.length / 2))
    merge compare left right
termination_by items.length
decreasing_by
  · simp only [List.length_take]; omega
  · simp only [List.length_drop]; omega

end FieldLang.Elements
