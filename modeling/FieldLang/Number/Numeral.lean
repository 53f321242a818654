import FieldLang.Number.Basic
import FieldLang.Text.Blank

/-!
# Numerals

Reading numbers from text. A decimal numeral is digits with an optional point and an optional power
of ten, `12`, `1.5`, `.5`, `3.`, `2e-3`; its value is the double nearest to the number written. All
readers below share `Numeral` and differ in what may stand around it:

* `ofText` takes the whole text, trimmed of blanks, and also knows `Infinity` and hexadecimal
  integers in the range of 64 bits;
* `ofPrefixText` takes the longest numeral at the start and ignores the rest;
* `ofDigits` takes the longest run of digits in a radix, and accumulates them in floating point.

## Main definitions

* `Numeral`, `Numeral.value`: A decimal numeral without sign, and its number.
* `digitValue?`: The value of a character as a digit.
* `scanExponent`, `scanNumeral`: The longest exponent or numeral at the start of a text.
* `ofText`, `ofPrefixText`, `ofDigits`: The three readers.
-/

namespace FieldLang.Number

/-- A decimal numeral without sign: the digits before and after the point, and the power of ten. -/
structure Numeral where
  whole : List Char
  fraction : List Char
  exponent : Int

/-- The value of an ASCII digit or letter as a digit, up to thirty-five. -/
def digitValue? (c : Char) : Option Nat :=
  if c.isDigit then some (c.toNat - 48)
  else if c.isLower then some (c.toNat - 87)
  else if c.isUpper then some (c.toNat - 55)
  else none

/-- The value of a character as a digit in a radix. -/
def digitIn? (radix : Nat) (c : Char) : Option Nat :=
  (digitValue? c).filter (· < radix)

/-- The natural number that a list of digits writes in a radix. -/
def natOfDigits (radix : Nat) (cs : List Char) : Nat :=
  cs.foldl (fun n c => n * radix + (digitValue? c).getD 0) 0

/-- The double nearest to `n · 10^exponent`. -/
def ofDecimal (n : Nat) (exponent : Int) : Float :=
  Float.ofScientific n (exponent < 0) exponent.natAbs

/-- The number that a numeral writes. -/
def Numeral.value (n : Numeral) : Float :=
  ofDecimal (natOfDigits 10 (n.whole ++ n.fraction)) (n.exponent - n.fraction.length)

/-- An optional sign at the start of a text: whether it is a minus, and what follows. -/
def scanSign : List Char → Bool × List Char
  | '-' :: cs => (true, cs)
  | '+' :: cs => (false, cs)
  | cs => (false, cs)

/-- A power of ten at the start of a text, with its sign and at least one digit, and what follows. -/
def scanExponent (cs : List Char) : Option (Int × List Char) :=
  match cs with
  | [] => none
  | c :: cs =>
    if c = 'e' ∨ c = 'E' then
      let (negative, cs) := scanSign cs
      let ds := cs.takeWhile Char.isDigit
      if ds.isEmpty then none
      else
        let n : Int := natOfDigits 10 ds
        some (if negative then -n else n, cs.dropWhile Char.isDigit)
    else none

/-- A point with the digits after it, and what follows; without a point no digits. -/
def scanFraction : List Char → List Char × List Char
  | '.' :: cs => (cs.takeWhile Char.isDigit, cs.dropWhile Char.isDigit)
  | cs => ([], cs)

/-- The longest numeral at the start of a text, and what follows it. A digit must stand on one side of
    the point. An `e` that no digit follows is left. -/
def scanNumeral (cs : List Char) : Option (Numeral × List Char) :=
  let whole := cs.takeWhile Char.isDigit
  let (fraction, rest) := scanFraction (cs.dropWhile Char.isDigit)
  if whole.isEmpty && fraction.isEmpty then none
  else
    match scanExponent rest with
    | some (exponent, rest) => some (⟨whole, fraction, exponent⟩, rest)
    | none => some (⟨whole, fraction, 0⟩, rest)

/-- A number with the sign that was read before it. -/
def withSign (negative : Bool) (x : Float) : Float :=
  if negative then -x else x

/-- The number at the start of a text: blanks are skipped, then comes an optionally signed infinity or
    the longest numeral. Without one the result is not a number. -/
def ofPrefixText (cs : List Char) : Float :=
  let (negative, cs) := scanSign (Text.trimStart cs)
  if "Infinity".toList.isPrefixOf cs then withSign negative infinity
  else
    match scanNumeral cs with
    | some (numeral, _) => withSign negative numeral.value
    | none => nan

/-- The integer that hexadecimal digits write, optionally signed, if it fits in 64 bits. -/
def ofHexadecimal (cs : List Char) : Float :=
  let (negative, ds) := scanSign cs
  if ds.isEmpty || !ds.all fun c => (digitIn? 16 c).isSome then nan
  else
    let n : Int := natOfDigits 16 ds
    let n := if negative then -n else n
    if leastInt64 ≤ n ∧ n ≤ greatestInt64 then Float.ofInt n else nan

/-- The number that a whole text writes. The empty text is zero; a text that is no numeral is not a
    number. -/
def ofText (cs : List Char) : Float :=
  match Text.trim cs with
  | [] => 0
  | '0' :: 'x' :: ds => ofHexadecimal ds
  | '0' :: 'X' :: ds => ofHexadecimal ds
  | cs =>
    let (negative, rest) := scanSign cs
    if rest = "Infinity".toList then withSign negative infinity
    else
      match scanNumeral rest with
      | some (numeral, []) => withSign negative numeral.value
      | _ => nan

/-- A text without the mark of a hexadecimal integer at its start. -/
def dropHexMark : List Char → List Char
  | '0' :: 'x' :: cs => cs
  | '0' :: 'X' :: cs => cs
  | cs => cs

/-- Whether the mark of a hexadecimal integer starts a text. -/
def hasHexMark : List Char → Bool
  | '0' :: 'x' :: _ => true
  | '0' :: 'X' :: _ => true
  | _ => false

/-- The integer at the start of a text in a radix from 2 to 36: blanks and one sign are skipped, in
    radix 16 also `0x`, and the longest run of digits is accumulated. Without a digit the result is
    not a number. -/
def ofDigits (radix : Nat) (cs : List Char) : Float :=
  if radix < 2 || 36 < radix then nan
  else
    let (negative, cs) := scanSign (Text.trimStart cs)
    let cs := if radix = 16 then dropHexMark cs else cs
    let ds := cs.takeWhile fun c => (digitIn? radix c).isSome
    if ds.isEmpty then nan
    else
      let n : Float := ds.foldl
        (fun n c => n * Float.ofNat radix + Float.ofNat ((digitValue? c).getD 0)) 0
      if negative then -1 * n else 1 * n

end FieldLang.Number
