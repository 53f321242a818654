import FieldLang.Json.Document
import FieldLang.Number.Numeral
import FieldLang.Number.Text

/-!
# Numbers in JSON

Integers and floating-point numbers are kept apart. A numeral without fraction and exponent is an integer
if it fits in 64 bits, with or without sign, and every other numeral is a floating-point number. In the
same way a number is written as an integer if it is one in the range of 64 bits with a sign.

How floating-point numbers are read and written is not the same everywhere. The exact way is here: the
number nearest to what is written, however many digits it has, and the fewest digits that read back. A
numeral beyond the range of floating-point numbers stands for nothing; one too close to zero is zero, with
the sign that is written.

## Main definitions

* `Number`: An integer or a floating-point number.
* `Numeral.integer?`: The integer of 64 bits that a numeral writes.
* `Numeral.nearest`, `Numeral.nearest?`: The floating-point number nearest to a numeral.
* `isInteger`, `integerText`: The numbers written as integers, and their texts.
* `shortestText`: The fewest digits that read back.
-/

namespace FieldLang.Json

open FieldLang.Number (signed)

/-- What a numeral stands for. -/
inductive Number where
  /-- An integer that is not negative. -/
  | natural (n : Nat)
  /-- A negative integer, by its magnitude. -/
  | negative (n : Nat)
  | float (x : Float)

namespace Numeral

/-- The power of ten that a numeral writes. -/
def power (numeral : Numeral) : Int :=
  match numeral.exponent with
  | none => 0
  | some (negative, ds) =>
    let n : Int := FieldLang.Number.natOfDigits 10 ds
    if negative then -n else n

/-- The floating-point number nearest to what a numeral writes. The sign stays, also on a zero. -/
def nearest (numeral : Numeral) : Float :=
  FieldLang.Number.withSign numeral.negative
    (FieldLang.Number.Numeral.value ⟨numeral.whole, numeral.fraction, numeral.power⟩)

/-- The nearest floating-point number, if what a numeral writes is in range. -/
def nearest? (numeral : Numeral) : Option Float :=
  if numeral.nearest.isInf then none else some numeral.nearest

/-- The integer that a numeral without fraction and exponent writes, if it fits in 64 bits: below `2^64`
    without a sign, from `-2^63` with one. A zero with a sign is no integer. -/
def integer? (numeral : Numeral) : Option Number :=
  if numeral.fraction.isEmpty && numeral.exponent.isNone then
    let n := FieldLang.Number.natOfDigits 10 numeral.whole
    if numeral.negative then
      if 0 < n ∧ n ≤ 0x8000000000000000 then some (.negative n) else none
    else if n < 0x10000000000000000 then some (.natural n) else none
  else none

end Numeral

/-- Whether a finite number is written as an integer: it has no fraction and is not beyond the bounds of
    64 bits, as far as the doubles nearest to the bounds tell. -/
def isInteger (x : Float) : Bool :=
  FieldLang.Number.isIntegral x && Float.ofInt FieldLang.Number.leastInt64 ≤ x &&
    x ≤ Float.ofInt FieldLang.Number.greatestInt64

/-- The text of an integer. -/
def integerText (n : Int) : List Char :=
  signed (n < 0) (Text.decimal n.natAbs)

/-- A decimal with an exponent after its digits, of which one stands before the point. -/
def scientific (ds : List Char) (exponent : Int) : List Char :=
  let mantissa := if ds.length ≤ 1 then ds else ds.take 1 ++ '.' :: ds.drop 1
  mantissa ++ 'e' :: (if exponent < 0 then '-' else '+') :: Text.decimal exponent.natAbs

/-- A decimal written out if its leading digit lies between the fifth place after the point and the
    sixteenth before it, and with an exponent otherwise. -/
def decimalText (d : FieldLang.Number.Decimal) : List Char :=
  let ds := Text.decimal d.digits
  let exponent := d.exponent + ds.length - 1
  if -5 ≤ exponent ∧ exponent < 16 then d.positional else scientific ds exponent

/-- The fewest digits that read back as a number, and null for what is not finite. -/
def shortestText (x : Float) : String :=
  match x.toModel.unpack with
  | .finite sign m e _ =>
    String.ofList (signed (sign == .negative) (decimalText (FieldLang.Number.shortest .even m e)))
  | .zero _ => "0"
  | _ => "null"

end FieldLang.Json
