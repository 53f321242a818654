import FieldLang.Builtin.Arrays
import FieldLang.Builtin.Numeric
import FieldLang.Builtin.Strings

/-!
# Applying Built-in Functions

What each built-in function returns for its arguments, apart from those that call other functions: on
their own they are refused, because the functions they would call are known to an engine only. Five
functions accept both arrays and texts and do the like with either.

## Main definitions

* `Builtin.argument`: An argument by position.
* `Builtin.toBool`: The truth value that a value converts to.
* `Builtin.apply`: The result of a built-in function.
-/

namespace FieldLang.Builtin

/-- The argument at a position; a missing one is undefined. -/
def argument (args : List Value) (position : Nat) : Value :=
  args[position]?.getD .undefined

/-- The truth value that a value converts to: only zero, the empty text and `false` convert to
    `false`. -/
def toBool : Value → Bool
  | .number n => n != 0
  | .string s => !s.isEmpty
  | .bool b => b
  | _ => true

/-- The result of a built-in function that calls no other. -/
def apply (function : Builtin) (args : List Value) : Except FunctionError Value :=
  let first := argument args 0
  let second := argument args 1
  let third := argument args 2
  let n := first.toNumber
  match function with
  | .abs => .ok (.number n.abs)
  | .ceil => .ok (.number (Number.toIntegral .ceiling n))
  | .floor => .ok (.number (Number.toIntegral .floor n))
  | .round => .ok (.number (Number.toIntegral .nearest n))
  | .min => .ok (.number (Numeric.least args))
  | .max => .ok (.number (Numeric.greatest args))
  | .pow => .ok (.number (n.pow second.toNumber))
  | .sqrt => .ok (.number n.sqrt)
  | .add => .ok (.number (Numeric.sum args))
  | .multiply => .ok (.number (Numeric.product args))
  | .concat => .ok (.string (String.join (args.map Value.text)))
  | .substring => .ok (.ofChars (Strings.substring first second third))
  | .toLowerCase => .ok (.ofChars (Text.lower (Strings.chars first)))
  | .toUpperCase => .ok (.ofChars (Text.upper (Strings.chars first)))
  | .trim => .ok (.ofChars (Text.trim (Strings.chars first)))
  | .length => Strings.length first
  | .startsWith => .ok (.bool ((Strings.chars second).isPrefixOf (Strings.chars first)))
  | .endsWith => .ok (.bool ((Strings.chars second).isSuffixOf (Strings.chars first)))
  | .includes =>
    match first with
    | .array items => .ok (.bool (Arrays.includes items second))
    | v => .ok (.bool (Text.occursIn (Strings.chars second) (Strings.chars v)))
  | .replaceAll =>
    .ok (.ofChars (Text.replaceAll (Strings.chars second) (Strings.chars third)
      (Strings.chars first)))
  | .indexOf =>
    match first with
    | .array items => .ok (Position.found (Arrays.indexOf items second))
    | v => .ok (Strings.indexOf v second third)
  | .lastIndexOf =>
    match first with
    | .array items => .ok (Position.found (Arrays.lastIndexOf items second))
    | v => .ok (Strings.lastIndexOf v second)
  | .slice =>
    match first with
    | .array items => .ok (.array (Position.slice items second third))
    | v => .ok (.ofChars (Position.slice (Strings.chars v) second third))
  | .parseInt => .ok (.number (Strings.parseInt first second))
  | .parseFloat => .ok (.number (Number.ofPrefixText (Strings.chars first)))
  | .toFixed => Strings.toFixed first second
  | .toString => .ok (.string first.text)
  | .toNumber => .ok (.number n)
  | .toBoolean => .ok (.bool (toBool first))
  | .isNull => .ok (.bool (first.tag = .null))
  | .isUndefined => .ok (.bool (first.tag = .undefined))
  | .isNumber => .ok (.bool (first.tag = .number))
  | .isString => .ok (.bool (first.tag = .string))
  | .isArray => .ok (.bool (first.tag = .array))
  | .isObject =>
    match first with
    | .object _ => .ok (.bool true)
    | _ => .ok (.bool false)
  | .reverse => do return .array (← Arrays.require .reverse first).reverse
  | .flat => do return .array (Arrays.flatten (Arrays.levels second) (← Arrays.require .flat first))
  | .push => do return .array ((← Arrays.require .push first) ++ args.drop 1)
  | .pop => do return .array (← Arrays.require .pop first).dropLast
  | .shift => do return .array ((← Arrays.require .shift first).drop 1)
  | .unshift => do return .array (args.drop 1 ++ (← Arrays.require .unshift first))
  | function => .error (.runtime (function.name ++ " requires a function argument"))

end FieldLang.Builtin
