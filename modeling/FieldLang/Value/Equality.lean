import FieldLang.Value.Basic

/-!
# Equality of Values

Values are equal when they have the same structure. Numbers are compared as numbers, so the two zeros
are equal and what is not a number differs from itself. Objects are equal when they have equally many
fields and each field of the one has an equal field under its key in the other; the order of the
fields does not matter.

## Main definitions

* `Value.equal`, `Value.equalLists`, `Value.matchFields`: Equality of values, of lists of values, and
  of the fields of one object with those of another.
-/

namespace FieldLang.Value

mutual

/-- Whether two values are equal. -/
def equal : Value → Value → Bool
  | .null, .null => true
  | .undefined, .undefined => true
  | .bool a, .bool b => a == b
  | .number a, .number b => a == b
  | .string a, .string b => a == b
  | .array a, .array b => equalLists a b
  | .object a, .object b => a.length == b.length && matchFields a b
  | .function a, .function b => a == b
  | _, _ => false

/-- Whether two lists of values are equal place by place. -/
def equalLists : List Value → List Value → Bool
  | [], [] => true
  | a :: as, b :: bs => a.equal b && equalLists as bs
  | _, _ => false

/-- Whether each of the given fields has an equal field under its key in the second list. -/
def matchFields : List (String × Value) → List (String × Value) → Bool
  | [], _ => true
  | (key, a) :: fields, others =>
    (match Keyed.get? key others with
      | some b => a.equal b
      | none => false) && matchFields fields others

end

end FieldLang.Value
