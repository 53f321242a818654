/-!
# Numbers

Every number of the language is a binary floating-point double. A finite one is `± m · 2^e` for a
natural mantissa `m`, and the operations here work on that pair in exact integer arithmetic, then
take the nearest double of the result. Where the result is a double already, nothing is rounded.

The integers near a number are reached by four rules. `Rounding` names them and says which multiple
of `2^k` each picks, on mantissas alone; the sign of the number goes to the result even when the
result is a zero.

## Main definitions

* `ofBinary`: The double nearest to `± m · 2^e`.
* `Rounding`, `Rounding.quotient`: The rules for reaching an integer.
* `toIntegral`: A number rounded to an integral number.
* `isIntegral`: Whether a number is finite and has no fraction.
* `leastInt64`, `greatestInt64`: The range of integers of 64 bits.
* `toInt`: A number truncated to an integer and clamped to a range.
* `truncated`: A finite number truncated to an integer.
* `remainder`: What is left of a number after removing whole multiples of another.
-/

namespace FieldLang.Number

open Float.Model

/-- The result of an operation without a numeric answer. -/
def nan : Float :=
  0.0 / 0.0

/-- Positive infinity. -/
def infinity : Float :=
  1.0 / 0.0

/-- The double nearest to `± m · 2^e`; of two equally near the one with the even mantissa. -/
def ofBinary (negative : Bool) (m : Nat) (e : Int) : Float :=
  .ofModel (.pack (.round .binary64 (if negative then .negative else .positive) m e))

/-- A rule for going from a number to an integer near it. -/
inductive Rounding where
  /-- Drop the fraction. -/
  | truncate
  /-- The greatest integer not above the number. -/
  | floor
  /-- The least integer not below the number. -/
  | ceiling
  /-- The nearest integer; a half goes away from zero. -/
  | nearest
deriving DecidableEq

/-- The integer that a rule picks for `m / 2^k`, as a magnitude; `negative` is the sign of the number
    whose magnitude is rounded. -/
def Rounding.quotient (rule : Rounding) (negative : Bool) (m k : Nat) : Nat :=
  let unit := Nat.pow 2 k
  let down := m / unit
  let up := (m + unit - 1) / unit
  match rule with
  | .truncate => down
  | .floor => if negative then up else down
  | .ceiling => if negative then down else up
  | .nearest => (2 * m + unit) / (2 * unit)

/-- A number rounded to an integral number. The sign stays, also on a zero. -/
def toIntegral (rule : Rounding) (x : Float) : Float :=
  match x.toModel.unpack with
  | .finite sign m e _ =>
    if e < 0 then
      let negative := sign == .negative
      ofBinary negative (rule.quotient negative m (-e).toNat) 0
    else x
  | _ => x

/-- Whether a number is finite and has no fraction. -/
def isIntegral (x : Float) : Bool :=
  match x.toModel.unpack with
  | .finite _ m e _ => m % Nat.pow 2 (-e).toNat == 0
  | .zero _ => true
  | _ => false

/-- The least integer of 64 bits with sign. -/
def leastInt64 : Int := -0x8000000000000000

/-- The greatest integer of 64 bits with sign. -/
def greatestInt64 : Int := 0x7FFFFFFFFFFFFFFF

/-- A number truncated to an integer and clamped to the range from `low` to `high`, to which the
    infinities go; what is not a number becomes zero. -/
def toInt (low high : Int) (x : Float) : Int :=
  max low (min high (x.toModel.unpack.toInt low high))

/-- A finite number without its fraction, as an integer; any other number becomes zero. -/
def truncated (x : Float) : Int :=
  x.toModel.unpack.toInt 0 0

/-- What is left of `x` after removing the whole multiples of `y` that fit into it. It has the sign of
    `x` and is exact, because it is a multiple of the smaller of the two last bits. -/
def remainder (x y : Float) : Float :=
  match x.toModel.unpack, y.toModel.unpack with
  | .notANumber, _ => nan
  | _, .notANumber => nan
  | .infinity _, _ => nan
  | _, .zero _ => nan
  | .finite sign m e _, .finite _ n f _ =>
    let low := min e f
    ofBinary (sign == .negative) ((m <<< (e - low).toNat) % (n <<< (f - low).toNat)) low
  | _, _ => x

end FieldLang.Number
