import FieldLang.Json.Number
import FieldLang.Json.Reader

/-!
# The JSON Library

JSON texts are read and written by a library, and not everything about it is settled by the standard. It
takes texts apart, it decides which floating-point number a numeral is read as, and it chooses the digits
of a floating-point number that is written. Some libraries read every numeral as the nearest number, others
are content with a number close by. So the library is a parameter of everything that reads or writes JSON,
and whoever relies on more than this says so.

The program runs with the exact library, which reads what the standard says and nothing else, takes the
nearest number and writes the fewest digits.

## Main definitions

* `Library`: What is taken from a JSON library.
* `Numeral.number?`: What a numeral stands for.
* `exact`: The library that the program runs with.
-/

namespace FieldLang.Json

/-- What is taken from a JSON library. -/
class Library where
  /-- The document that a text writes. -/
  document? : String → Option Document
  /-- The floating-point number that a numeral is read as, unless it is an integer. -/
  float? : Numeral → Option Float
  /-- The text that a finite floating-point number is written as, unless it is an integer. -/
  floatText : Float → String

/-- What a numeral stands for. -/
def Numeral.number? [Library] (numeral : Numeral) : Option Number :=
  match numeral.integer? with
  | some n => some n
  | none => (Library.float? numeral).map .float

/-- The library that reads the standard and nothing else, takes the nearest number and writes the fewest
    digits. -/
instance exact : Library where
  document? := Document.read?
  float? := Numeral.nearest?
  floatText := shortestText

end FieldLang.Json
