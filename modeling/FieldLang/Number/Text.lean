import FieldLang.Number.Basic
import FieldLang.Number.Shortest
import FieldLang.Text.Digits

/-!
# Number Text

How a number is shown in text. Numbers are always written out in positional form, never with an
exponent. An integral number below `10^21` shows all its digits, since those digits are its exact
value; any other finite number shows the fewest digits that read back, filled up with zeros.
Both zeros are `0`.

A fixed number of places is a different rule: the exact binary value is rounded to that many places,
a half to the even neighbour, and the sign is kept even if only zeros remain.

## Main definitions

* `Decimal.positional`: A decimal written out without exponent.
* `text`: The text of a number.
* `fixedChars`: The exact value of a number rounded to a number of places.
* `toFixed`: The text of a number with a set number of places.
-/

namespace FieldLang.Number

/-- Digits with a point before the last `places` of them, if there are any; at least one digit
    stands before the point. -/
def withPoint (places : Nat) (cs : List Char) : List Char :=
  if places = 0 then cs
  else
    let cs := Text.padLeft (places + 1) cs
    cs.take (cs.length - places) ++ '.' :: cs.drop (cs.length - places)

/-- A decimal written out without exponent. -/
def Decimal.positional (d : Decimal) : List Char :=
  withPoint (-d.exponent).toNat (Text.decimal d.digits ++ List.replicate d.exponent.toNat '0')

/-- A text with a minus sign in front if the number shown is negative. -/
def signed (negative : Bool) (cs : List Char) : List Char :=
  if negative then '-' :: cs else cs

/-- The text of a number, as a list of characters. -/
def chars (x : Float) : List Char :=
  match x.toModel.unpack with
  | .notANumber => "NaN".toList
  | .infinity sign => signed (sign == .negative) "Infinity".toList
  | .zero _ => ['0']
  | .finite sign m e _ =>
    signed (sign == .negative)
      (if isIntegral x && x.abs < 1e21 then Text.decimal (m <<< e.toNat >>> (-e).toNat)
       else (shortest .up m e).positional)

/-- The text of a number. -/
def text (x : Float) : String :=
  String.ofList (chars x)

/-- The quotient of two naturals rounded to the nearest, a half to the even neighbour. -/
def roundedQuotient (num den : Nat) : Nat :=
  let below := num / den
  match compare (2 * (num % den)) den with
  | .lt => below
  | .gt => below + 1
  | .eq => below + below % 2

/-- The exact value of a number rounded to a number of places. -/
def fixedChars (places : Nat) (x : Float) : List Char :=
  match x.toModel.unpack with
  | .zero sign => signed (sign == .negative) (withPoint places ['0'])
  | .finite sign m e _ =>
    let scaled := roundedQuotient ((m <<< e.toNat) * Nat.pow 10 places) (Nat.pow 2 (-e).toNat)
    signed (sign == .negative) (withPoint places (Text.decimal scaled))
  | _ => chars x

/-- A power of ten by repeated squaring, each product rounded to a double: `factor` is multiplied by
    those squares of `base` that the binary digits of the exponent select. -/
def powerBySquaring (base factor : Float) (exponent : Nat) : Float :=
  if exponent ≤ 1 then if exponent % 2 = 1 then factor * base else factor
  else powerBySquaring (base * base) (if exponent % 2 = 1 then factor * base else factor) (exponent / 2)

/-- The text of a number with a set number of places, halves away from zero: the scaled number is
    rounded, scaled back and then written out. Numbers from `10^21` on, and those that are not
    finite, are shown as always. -/
def toFixed (places : Nat) (x : Float) : String :=
  if !x.isFinite || x.abs ≥ 1e21 then text x
  else
    let power := powerBySquaring 10 1 places
    let scaled := x * power
    let rounded := if scaled.isFinite then toIntegral .nearest scaled / power else x
    String.ofList (fixedChars places rounded)

end FieldLang.Number
