import FieldLang.Builtin.Error
import FieldLang.Position
import FieldLang.Text.Case
import FieldLang.Text.Search

/-!
# String Built-ins

Functions on the plain texts of their arguments; a value that is not a string is shown as text first.
Positions count characters.

## Main definitions

* `substring`: The part of a text between two positions, in either order.
* `indexOf`, `lastIndexOf`: Where a text occurs in another.
* `parseInt`: The integer at the start of a text.
* `toFixed`: A number with a set number of places.
-/

namespace FieldLang.Strings

/-- The characters of a value's plain text. -/
def chars (v : Value) : List Char :=
  v.text.toList

/-- The part of a text between two positions, in either order; without a second bound up to the end. -/
def substring (s start stop : Value) : List Char :=
  let cs := chars s
  let a := Position.absolute cs.length start
  let b := if stop.isUndefined then cs.length else Position.absolute cs.length stop
  Position.between (min a b) (max a b) cs

/-- The length of a text in characters, or of an array. -/
def length (v : Value) : Except FunctionError Value :=
  match v.length? with
  | some n => .ok (.ofNat n)
  | none => .error (.type ("length requires a string or an array, got " ++ v.typeName))

/-- The first position of a text in another from a given one on. -/
def indexOf (s search start : Value) : Value :=
  Position.found (Text.first? (chars search) (chars s) (Position.absolute (chars s).length start))

/-- The last position of a text in another. -/
def lastIndexOf (s search : Value) : Value :=
  Position.found (Text.last? (chars search) (chars s))

/-- A text without the signs at its start. -/
def dropSigns (cs : List Char) : List Char :=
  cs.dropWhile fun c => c = '+' || c = '-'

/-- The integer at the start of a text. Radix zero asks for sixteen after `0x` and for ten otherwise;
    negative radices count as zero. -/
def parseInt (s radix : Value) : Float :=
  let cs := chars s
  match (Number.toInt 0 0xFFFFFFFF radix.toNumber).toNat with
  | 0 => Number.ofDigits (if Number.hasHexMark (dropSigns (Text.trimStart cs)) then 16 else 10) cs
  | radix => Number.ofDigits radix cs

/-- A number with a set number of places, from 0 to 100. -/
def toFixed (n places : Value) : Except FunctionError Value :=
  let d := Number.toInt (-1) 101 places.toNumber
  if d < 0 ∨ 100 < d then
    .error (.argument "toFixed() digits argument must be between 0 and 100")
  else .ok (.string (Number.toFixed d.toNat n.toNumber))

end FieldLang.Strings
