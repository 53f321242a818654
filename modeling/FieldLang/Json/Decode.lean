import FieldLang.Json.Library
import FieldLang.Value.Basic

/-!
# Values from JSON

A document as a value, in two ways. The direct way makes values of numbers as they come, integers and
floating-point numbers alike. The other goes through `Json`, data of its own that tells them apart and can
be asked for a floating-point number later. In both, of the members with one key the last gives the content
and the first the place.

A document stands for nothing if a string in it has half a surrogate pair or a number is out of range.
Documents nested too deeply are refused by the readers of whole texts.

## Main definitions

* `Value.ofNumber`, `Value.ofDocument?`: The value of a number and of a document.
* `Json`: JSON data.
* `Json.Number.asFloat?`: The floating-point number of a number in JSON data.
* `Json.ofDocument?`, `Json.toValue`: The data of a document, and the value of data.
* `Value.read?`, `Json.read?`: The same for a text.
-/

namespace FieldLang

open Json (Document Piece Library)

/-- The value of a number that is read. Integers are rounded to the nearest double. -/
def Value.ofNumber : Json.Number → Value
  | .natural n => .number (Float.ofNat n)
  | .negative n => .number (-Float.ofNat n)
  | .float x => .number x

section Direct

variable [Library]

mutual

/-- The value of a document. -/
def Value.ofDocument? : Document → Option Value
  | .null => some .null
  | .bool b => some (.bool b)
  | .number n => do return Value.ofNumber (← n.number?)
  | .string pieces => do return .string (← Json.text? pieces)
  | .array items => do return .array (← Value.ofDocuments? items)
  | .object members => do return .object (← Value.ofMembers? [] members)

/-- The values of the elements of an array. -/
def Value.ofDocuments? : List Document → Option (List Value)
  | [] => some []
  | d :: ds => do
    let v ← Value.ofDocument? d
    let vs ← Value.ofDocuments? ds
    return v :: vs

/-- The fields of an object, inserted one after the other. -/
def Value.ofMembers? (fields : Keyed Value) : List (List Piece × Document) → Option (Keyed Value)
  | [] => some fields
  | (key, d) :: rest => do
    let key ← Json.text? key
    let v ← Value.ofDocument? d
    Value.ofMembers? (Keyed.insert key v fields) rest

end

end Direct

/-- JSON data. -/
inductive Json where
  | null
  | bool (b : Bool)
  | number (n : Json.Number)
  | string (s : String)
  | array (items : List Json)
  | object (fields : List (String × Json))

namespace Json

section Data

variable [Library]

mutual

/-- The data of a document. -/
def ofDocument? : Document → Option Json
  | .null => some .null
  | .bool b => some (.bool b)
  | .number n => do return .number (← n.number?)
  | .string pieces => do return .string (← text? pieces)
  | .array items => do return .array (← ofDocuments? items)
  | .object members => do return .object (← ofMembers? [] members)

/-- The data of the elements of an array. -/
def ofDocuments? : List Document → Option (List Json)
  | [] => some []
  | d :: ds => do
    let j ← ofDocument? d
    let js ← ofDocuments? ds
    return j :: js

/-- The fields of an object, inserted one after the other. -/
def ofMembers? (fields : Keyed Json) : List (List Piece × Document) → Option (Keyed Json)
  | [] => some fields
  | (key, d) :: rest => do
    let key ← text? key
    let j ← ofDocument? d
    ofMembers? (Keyed.insert key j fields) rest

end

end Data

/-- A number in JSON data as a floating-point number; every one has such a number. -/
def Number.asFloat? : Number → Option Float
  | .natural n => some (Float.ofNat n)
  | .negative n => some (-Float.ofNat n)
  | .float x => some x

mutual

/-- The value of JSON data. -/
def toValue : Json → Value
  | .null => .null
  | .bool b => .bool b
  | .number n => .number (n.asFloat?.getD FieldLang.Number.nan)
  | .string s => .string s
  | .array items => .array (toValues items)
  | .object fields => .object (toFields fields)

/-- The values of the elements of an array. -/
def toValues : List Json → List Value
  | [] => []
  | j :: js => j.toValue :: toValues js

/-- The values of the fields of an object. -/
def toFields : List (String × Json) → List (String × Value)
  | [] => []
  | (key, j) :: rest => (key, j.toValue) :: toFields rest

end

/-- A document that is not nested too deeply. -/
def Document.shallow? (d : Document) : Option Document :=
  if d.nesting ≤ Document.maxNesting then some d else none

/-- The data that a text writes. -/
def read? [Library] (text : String) : Option Json := do
  ofDocument? (← (← Library.document? text).shallow?)

end Json

/-- The value that a text writes. -/
def Value.read? [Library] (text : String) : Option Value := do
  Value.ofDocument? (← (← Library.document? text).shallow?)

end FieldLang
