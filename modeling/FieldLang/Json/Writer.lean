import FieldLang.Json.Library
import FieldLang.Text.Quoted
import FieldLang.Value.Basic

/-!
# Writing JSON

Values as compact JSON text. JSON has no place for undefined values, function references and numbers
that are not finite: all become null.

An integral number in the range of 64-bit integers is written as an integer; rounding to the nearest
double may have carried it just past the end of the range, to which it is then brought back. The text of
any other number is the library's.

## Main definitions

* `escape`, `quote`: Strings in JSON.
* `numberText`: Numbers in JSON.
* `Value.toJson`, `Value.toJsonItems`, `Value.toJsonFields`: Values as JSON text.
-/

namespace FieldLang

namespace Json

/-- A character inside a string. -/
def escape (c : Char) : List Char :=
  if c = '\x08' then ['\\', 'b']
  else if c = '\x0c' then ['\\', 'f']
  else Text.escapeChar c

/-- A text as a JSON string. -/
def quote (s : String) : String :=
  String.ofList ('\x22' :: s.toList.flatMap escape ++ ['\x22'])

/-- The text of a number. -/
def numberText [Library] (x : Float) : String :=
  match x.toModel.unpack with
  | .zero _ => "0"
  | .finite .. =>
    if isInteger x then
      String.ofList
        (integerText (FieldLang.Number.toInt FieldLang.Number.leastInt64 FieldLang.Number.greatestInt64 x))
    else Library.floatText x
  | _ => "null"

end Json

namespace Value

variable [Json.Library]

mutual

/-- A value as JSON text. -/
def toJson : Value → String
  | .null => "null"
  | .undefined => "null"
  | .function _ => "null"
  | .bool b => if b then "true" else "false"
  | .number n => Json.numberText n
  | .string s => Json.quote s
  | .array items => "[" ++ String.intercalate "," (toJsonItems items) ++ "]"
  | .object fields => "\x7b" ++ String.intercalate "," (toJsonFields fields) ++ "\x7d"

/-- The elements of an array as JSON texts. -/
def toJsonItems : List Value → List String
  | [] => []
  | v :: vs => v.toJson :: toJsonItems vs

/-- The fields of an object as JSON texts. -/
def toJsonFields : List (String × Value) → List String
  | [] => []
  | (key, v) :: fields => (Json.quote key ++ ":" ++ v.toJson) :: toJsonFields fields

end

end Value

end FieldLang
