/-!
# Built-in Functions

The table of functions that every engine has. Their names are reserved: nothing can be registered
under them. Eight of them take a function and call it on the elements of an array.

## Main definitions

* `Builtin`: The functions, in the order of the table.
* `Builtin.name`, `Builtin.ofName?`: Their names.
* `Builtin.takesCallback`: Whether a function calls another.

## Theorems

* `ofName?_name`: Every function is found under its name.
* `name_of_ofName?`: What is found under a name has that name.
-/

namespace FieldLang

/-- A built-in function. -/
inductive Builtin where
  | abs
  | ceil
  | floor
  | round
  | min
  | max
  | pow
  | sqrt
  | add
  | multiply
  | concat
  | substring
  | toLowerCase
  | toUpperCase
  | trim
  | length
  | startsWith
  | endsWith
  | includes
  | replaceAll
  | indexOf
  | lastIndexOf
  | slice
  | parseInt
  | parseFloat
  | toFixed
  | toString
  | toNumber
  | toBoolean
  | isNull
  | isUndefined
  | isNumber
  | isString
  | isArray
  | isObject
  | map
  | filter
  | find
  | reduce
  | some
  | every
  | sort
  | reverse
  | flat
  | flatMap
  | push
  | pop
  | shift
  | unshift
deriving DecidableEq

namespace Builtin

/-- All built-in functions, in the order of the table. -/
def all : List Builtin :=
  [.abs, .ceil, .floor, .round, .min, .max, .pow, .sqrt, .add, .multiply,
   .concat, .substring, .toLowerCase, .toUpperCase, .trim, .length, .startsWith, .endsWith,
   .includes, .replaceAll, .indexOf, .lastIndexOf, .slice, .parseInt, .parseFloat, .toFixed,
   .toString, .toNumber, .toBoolean, .isNull, .isUndefined, .isNumber, .isString, .isArray,
   .isObject, .map, .filter, .find, .reduce, .some, .every, .sort, .reverse, .flat, .flatMap,
   .push, .pop, .shift, .unshift]

/-- The name of a built-in function. -/
def name : Builtin → String
  | .abs => "abs"
  | .ceil => "ceil"
  | .floor => "floor"
  | .round => "round"
  | .min => "min"
  | .max => "max"
  | .pow => "pow"
  | .sqrt => "sqrt"
  | .add => "add"
  | .multiply => "multiply"
  | .concat => "concat"
  | .substring => "substring"
  | .toLowerCase => "toLowerCase"
  | .toUpperCase => "toUpperCase"
  | .trim => "trim"
  | .length => "length"
  | .startsWith => "startsWith"
  | .endsWith => "endsWith"
  | .includes => "includes"
  | .replaceAll => "replaceAll"
  | .indexOf => "indexOf"
  | .lastIndexOf => "lastIndexOf"
  | .slice => "slice"
  | .parseInt => "parseInt"
  | .parseFloat => "parseFloat"
  | .toFixed => "toFixed"
  | .toString => "toString"
  | .toNumber => "toNumber"
  | .toBoolean => "toBoolean"
  | .isNull => "isNull"
  | .isUndefined => "isUndefined"
  | .isNumber => "isNumber"
  | .isString => "isString"
  | .isArray => "isArray"
  | .isObject => "isObject"
  | .map => "map"
  | .filter => "filter"
  | .find => "find"
  | .reduce => "reduce"
  | .some => "some"
  | .every => "every"
  | .sort => "sort"
  | .reverse => "reverse"
  | .flat => "flat"
  | .flatMap => "flatMap"
  | .push => "push"
  | .pop => "pop"
  | .shift => "shift"
  | .unshift => "unshift"

/-- The built-in function with a name. -/
def ofName? (name : String) : Option Builtin :=
  all.find? fun b => b.name == name

/-- Whether a name belongs to a built-in function. -/
def isName (name : String) : Bool :=
  (ofName? name).isSome

/-- Whether a built-in function calls a function that it is given. -/
def takesCallback : Builtin → Bool
  | .map => true
  | .filter => true
  | .find => true
  | .reduce => true
  | .some => true
  | .every => true
  | .sort => true
  | .flatMap => true
  | _ => false

/-- Every function is found under its name. -/
theorem ofName?_name (b : Builtin) : ofName? b.name = Option.some b := by
  cases b <;> decide

/-- What is found under a name has that name. -/
theorem name_of_ofName? {name : String} {b : Builtin} (h : ofName? name = Option.some b) :
    b.name = name := by
  simpa using List.find?_some h

end Builtin

end FieldLang
