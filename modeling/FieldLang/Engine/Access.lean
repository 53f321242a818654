import FieldLang.Engine.Error
import FieldLang.Value.Text

/-!
# Access to Properties and Elements

What `object.property` and `object[index]` give. Three keys are denied: no expression may read them,
by whatever form, so they are refused before the object is looked at. Nullish values have neither
properties nor elements. Anything else has a value for every key, if only the undefined one.

## Main definitions

* `isDenied`, `guardKey`: The denied keys, and their refusal.
* `Value.property`: The value of a property.
* `Value.position?`: The position that a value denotes.
* `Value.indexed`: The value at an index.
-/

namespace FieldLang

/-- The keys that no expression may touch. -/
def deniedKeys : List String :=
  ["constructor", "prototype", "__proto__"]

/-- Whether a key is denied. -/
def isDenied (key : String) : Bool :=
  deniedKeys.contains key

/-- Refuses a denied key. -/
def guardKey (key : String) : Except EvalError Unit :=
  if isDenied key then .error (.accessDenied key) else .ok ()

namespace Value

/-- The property of a value that is not nullish: a field of an object, or the length of an array or a
    text. -/
def propertyOf (v : Value) (property : String) : Value :=
  match v with
  | .object fields => (Keyed.get? property fields).getD .undefined
  | v =>
    match v.length? with
    | some n => if property = "length" then .ofNat n else .undefined
    | none => .undefined

/-- The value of a property. -/
def property (v : Value) (property : String) : Except EvalError Value :=
  if v.isNullish then .error (.propertyOfNullish property v.typeName)
  else .ok (v.propertyOf property)

/-- The position that a value denotes: an integral number that is not negative. -/
def position? : Value → Option Nat
  | .number n =>
    if n ≥ 0 && Number.isIntegral n then some (Number.truncated n).toNat else none
  | _ => none

/-- The character of a text at a position, as a text. -/
def charAt (s : String) (position : Nat) : Value :=
  match s.toList[position]? with
  | some c => .string c.toString
  | none => .undefined

/-- Refuses an index that is a denied key. -/
def guardIndex : Value → Except EvalError Unit
  | .string key => guardKey key
  | _ => .ok ()

/-- The value at an index. Objects are asked for the field under the plain text of the index; arrays
    and texts for a position, or for a property if the index is a text. -/
def indexed (v index : Value) : Except EvalError Value := do
  guardIndex index
  if v.isNullish then throw (.indexOfNullish index.text v.typeName)
  match v, index with
  | .object fields, index => do
    guardKey index.text
    return (Keyed.get? index.text fields).getD .undefined
  | v, .string key => v.property key
  | .array items, index =>
    return ((index.position?).bind (items[·]?)).getD .undefined
  | .string s, index =>
    return ((index.position?).map (charAt s)).getD .undefined
  | _, _ => return .undefined

end Value

end FieldLang
