import FieldLang.Keyed

/-!
# Values

What expressions compute with: the data of a document, an absent value that is not the null of the
document, and references to functions by name. Objects keep their fields in the order in which the
keys first came in.

## Main definitions

* `Value`: The values.
* `Value.typeName`: The name of a value's type in messages.
* `Tag`, `Value.tag`: The type reported with a result, where functions count as objects.
* `Value.isNullish`, `Value.isTruthy`: The two tests that operators make.
* `Value.field?`, `Value.element?`: A field of an object, an element of an array.
-/

namespace FieldLang

/-- A value of the language. -/
inductive Value where
  /-- The null of a document. -/
  | null
  /-- The absence of a value. -/
  | undefined
  | bool (b : Bool)
  | number (n : Float)
  | string (s : String)
  | array (items : List Value)
  | object (fields : List (String × Value))
  /-- A reference to a built-in or registered function. -/
  | function (name : String)
deriving Inhabited

/-- The type reported with a result. -/
inductive Tag where
  | number
  | string
  | boolean
  | null
  | undefined
  | array
  | object
deriving DecidableEq

/-- The name of a tag. -/
def Tag.name : Tag → String
  | .number => "number"
  | .string => "string"
  | .boolean => "boolean"
  | .null => "null"
  | .undefined => "undefined"
  | .array => "array"
  | .object => "object"

namespace Value

/-- The type of a value; a function reference counts as an object. -/
def tag : Value → Tag
  | .null => .null
  | .undefined => .undefined
  | .bool _ => .boolean
  | .number _ => .number
  | .string _ => .string
  | .array _ => .array
  | .object _ => .object
  | .function _ => .object

/-- The name of a value's type in messages, where functions have a name of their own. -/
def typeName : Value → String
  | .function _ => "function"
  | v => v.tag.name

/-- Whether a value is null or undefined. -/
def isNullish : Value → Bool
  | .null => true
  | .undefined => true
  | _ => false

/-- Whether a value counts as true: nullish values, `false`, zero, what is not a number and the empty
    text do not. -/
def isTruthy : Value → Bool
  | .null => false
  | .undefined => false
  | .bool b => b
  | .number n => n != 0 && !n.isNaN
  | .string s => !s.isEmpty
  | .array _ => true
  | .object _ => true
  | .function _ => true

/-- Whether a value is undefined. -/
def isUndefined : Value → Bool
  | .undefined => true
  | _ => false

/-- Whether a value is a string. -/
def isString : Value → Bool
  | .string _ => true
  | _ => false

/-- The value of a natural number. -/
def ofNat (n : Nat) : Value :=
  .number (Float.ofNat n)

/-- The value of a text given as characters. -/
def ofChars (cs : List Char) : Value :=
  .string (String.ofList cs)

/-- The field of an object under a key. -/
def field? (key : String) : Value → Option Value
  | .object fields => Keyed.get? key fields
  | _ => none

/-- The element of an array at a position. -/
def element? (position : Nat) : Value → Option Value
  | .array items => items[position]?
  | _ => none

/-- The length of an array, or of a text in characters. -/
def length? : Value → Option Nat
  | .array items => some items.length
  | .string s => some s.length
  | _ => none

end Value

end FieldLang
