/-!
# Shortest Digits

The decimal that is shown for a double is the one with the fewest digits among those that read back
as the same double, and of several such the nearest.

A positive double is `m · 2^e`. The reals that round to it lie between the midpoints to its two
neighbours, and the midpoints belong to it when `m` is even. The midpoints are half a unit in the
last place away, except below a power of two, where the lower neighbour is nearer and the lower
midpoint only a quarter away. In quarters of the last place everything is a natural number, so the
interval is `Span`: three naturals on one binary scale.

The search walks the decimal grids from coarse to fine. On each grid the two neighbours of the value
are tested, and the first grid that has a hit ends the search: a decimal with fewer digits would lie
on a coarser grid, and a grid point inside the interval forces one of the value's two neighbours
inside. The first grid tried is at least as coarse as the value's leading digit.

## Main definitions

* `Decimal`: A natural number of units of a power of ten.
* `Tie`: Which of two equally near decimals is taken.
* `Span`: The value and the ends of its interval, in quarters of the last place.
* `shortest`: The shortest decimal of a positive double.
-/

namespace FieldLang.Number

/-- The decimal `digits · 10^exponent`. -/
structure Decimal where
  digits : Nat
  exponent : Int

/-- Which of two equally near candidates is taken. -/
inductive Tie where
  /-- The greater one. -/
  | up
  /-- The one with the even last digit. -/
  | even
deriving DecidableEq

/-- The value `value · 2^scale` and the interval of reals that round to it. -/
structure Span where
  low : Nat
  value : Nat
  high : Nat
  /-- Whether the ends belong to the interval. -/
  closed : Bool
  scale : Int

/-- The interval of the double `m · 2^e`. -/
def Span.of (m : Nat) (e : Int) : Span where
  low := if m = 0x10000000000000 ∧ -1074 < e then 4 * m - 1 else 4 * m - 2
  value := 4 * m
  high := 4 * m + 2
  closed := m % 2 == 0
  scale := e - 2

/-- The factor that turns `n · 2^scale` into units of `10^grid`, as a fraction. -/
def Span.units (span : Span) (grid : Int) : Nat × Nat :=
  (Nat.pow 2 span.scale.toNat * Nat.pow 10 (-grid).toNat,
    Nat.pow 2 (-span.scale).toNat * Nat.pow 10 grid.toNat)

/-- Whether `n · 10^grid` lies in the interval. -/
def Span.contains (span : Span) (grid : Int) (n : Nat) : Bool :=
  let (num, den) := span.units grid
  if span.closed then span.low * num ≤ n * den && n * den ≤ span.high * num
  else span.low * num < n * den && n * den < span.high * num

/-- The neighbour of the value on a grid that lies in the interval, if one does; of two the nearer. -/
def Span.onGrid (span : Span) (tie : Tie) (grid : Int) : Option Decimal :=
  let (num, den) := span.units grid
  let below := span.value * num / den
  let above := below + 1
  match span.contains grid below, span.contains grid above with
  | true, false => some ⟨below, grid⟩
  | false, true => some ⟨above, grid⟩
  | false, false => none
  | true, true =>
    match compare (2 * (span.value * num)) ((below + above) * den) with
    | .lt => some ⟨below, grid⟩
    | .gt => some ⟨above, grid⟩
    | .eq =>
      match tie with
      | .up => some ⟨above, grid⟩
      | .even => some ⟨if below % 2 = 0 then below else above, grid⟩

/-- The first hit on `count` grids, each ten times finer than the one before; without a hit the exact
    value cut off at the last grid. -/
def Span.search (span : Span) (tie : Tie) : (count : Nat) → (grid : Int) → Decimal
  | 0, grid =>
    let (num, den) := span.units grid
    ⟨span.value * num / den, grid⟩
  | count + 1, grid =>
    match span.onGrid tie grid with
    | some decimal => decimal
    | none => span.search tie count (grid - 1)

/-- A grid at least as coarse as the leading digit of `m · 2^e`. -/
def coarsestGrid (m : Nat) (e : Int) : Int :=
  (m.log2 + 1 + e) * 30103 / 100000 + 1

/-- The decimal with the fewest digits that reads back as the positive double `m · 2^e`. Seventeen
    digits suffice for every double, and the first grids may lie above the leading digit. -/
def shortest (tie : Tie) (m : Nat) (e : Int) : Decimal :=
  (Span.of m e).search tie 20 (coarsestGrid m e)

end FieldLang.Number
