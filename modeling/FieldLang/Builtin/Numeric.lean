import FieldLang.Value.Text

/-!
# Numeric Built-ins

Functions on the numbers of all their arguments.

## Main definitions

* `least`, `greatest`: The extremes of the arguments.
* `sum`, `product`: Sum and product of the arguments.
-/

namespace FieldLang.Numeric

/-- The numbers of the arguments, unless one of them is not a number. -/
def numbers? (args : List Value) : Option (List Float) :=
  let ns := args.map Value.toNumber
  if ns.any Float.isNaN then none else some ns

/-- The least of the arguments; of none it is infinity. -/
def least (args : List Value) : Float :=
  match numbers? args with
  | some ns => ns.foldl (fun a n => if n < a then n else a) Number.infinity
  | none => Number.nan

/-- The greatest of the arguments; of none it is negative infinity. -/
def greatest (args : List Value) : Float :=
  match numbers? args with
  | some ns => ns.foldl (fun a n => if a < n then n else a) (-Number.infinity)
  | none => Number.nan

/-- The sum of the arguments from left to right, starting from the negative zero, which changes no
    number it is added to. -/
def sum (args : List Value) : Float :=
  args.foldl (fun a v => a + v.toNumber) (-0.0)

/-- The product of the arguments from left to right. -/
def product (args : List Value) : Float :=
  args.foldl (fun a v => a * v.toNumber) 1

end FieldLang.Numeric
