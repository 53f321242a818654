import FieldLang.Number.Numeral
import FieldLang.Number.Text
import FieldLang.Text.Quoted
import FieldLang.Value.Basic

/-!
# Values as Text and as Numbers

A value has two texts. Its plain text is what concatenation uses: strings stand for themselves, an
array is its elements separated by commas with nullish elements left out, and every object looks the
same. Its written form is what an expression shows: strings are quoted, arrays and objects are
bracketed, and a function is its bare name.

A value also has a number: texts are read as numerals, an array counts as its only element, and what
has no number is not a number.

## Main definitions

* `Value.text`, `Value.texts`: The plain text of a value, and of the elements of an array.
* `Value.render`, `Value.renderItems`, `Value.renderFields`: The written form.
* `Value.toNumber`, `Value.toInteger`: The number of a value, and its integral part.
-/

namespace FieldLang.Value

mutual

/-- The plain text of a value. -/
def text : Value → String
  | .null => "null"
  | .undefined => "undefined"
  | .bool b => if b then "true" else "false"
  | .number n => Number.text n
  | .string s => s
  | .array items => String.intercalate "," (texts items)
  | .object _ => "[object Object]"
  | .function name => "[function " ++ name ++ "]"

/-- The plain texts of the elements of an array; a nullish element has the empty text. -/
def texts : List Value → List String
  | [] => []
  | v :: vs => (if v.isNullish then "" else v.text) :: texts vs

end

mutual

/-- The written form of a value. -/
def render : Value → String
  | .null => "null"
  | .undefined => "undefined"
  | .bool b => if b then "true" else "false"
  | .number n => Number.text n
  | .string s => Text.quoted s
  | .array items => "[" ++ String.intercalate ", " (renderItems items) ++ "]"
  | .object fields => "\x7b" ++ String.intercalate ", " (renderFields fields) ++ "\x7d"
  | .function name => name

/-- The written forms of the elements of an array. -/
def renderItems : List Value → List String
  | [] => []
  | v :: vs => v.render :: renderItems vs

/-- The written forms of the fields of an object. -/
def renderFields : List (String × Value) → List String
  | [] => []
  | (key, v) :: fields => (Text.quoted key ++ ": " ++ v.render) :: renderFields fields

end

/-- The number of a value. -/
def toNumber : Value → Float
  | .null => 0
  | .undefined => Number.nan
  | .bool b => if b then 1 else 0
  | .number n => n
  | .string s => Number.ofText s.toList
  | .array [] => 0
  | .array [v] => v.toNumber
  | .array _ => Number.nan
  | .object _ => Number.nan
  | .function _ => Number.nan

/-- The number of a value without its fraction, as positions and counts are given; what is not a
    number counts as zero. -/
def toInteger (v : Value) : Float :=
  let n := v.toNumber
  if n.isNaN then 0 else Number.toIntegral .truncate n

end FieldLang.Value
