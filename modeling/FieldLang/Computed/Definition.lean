import FieldLang.Computed.Basic
import FieldLang.Pipeline.Definition

/-!
# Computed Fields as Definitions

A mapping definition gives a computed field as a value. A text is source; an object is recognised by
the key `op`, `if`, `switch` or `call`, looked for in this order; every other value, and every object
without such a key, stands for itself. Of a repeated key the first counts.

The fields of an object are decoded where they are found, so that decoding recurses on the definition
itself.

## Main definitions

* `Computed.ofValue`: A computed field given as a value.
* `Computed.ofField`, `Computed.ofField?`: The computed field under a key of an object.
* `Computed.ofCases`, `Computed.ofItems`: Those of all fields of an object, and of a list.
-/

namespace FieldLang.Computed

mutual

/-- A computed field given as a value. -/
def ofValue : Value → Except PipelineError Computed
  | .string text => do return .source (← (Expr.parse text).mapError PipelineError.parse)
  | .object fields =>
    if Keyed.contains "op" fields then do return .pipeline (← Pipeline.ofValue (.object fields))
    else if Keyed.contains "if" fields then
      if Keyed.contains "then" fields then do
        let condition ← ofField "if" fields
        let thenBranch ← ofField "then" fields
        let elseBranch ← ofField? "else" fields
        return .conditional condition thenBranch elseBranch
      else .error (.invalidExpression "conditional requires 'then'")
    else if Keyed.contains "switch" fields then do
      let cases ← casesField fields
      let subject ← ofField "switch" fields
      let otherwise ← ofField? "default" fields
      return .switch subject cases otherwise
    else
      match Keyed.get? "call" fields with
      | some (.string function) => do return .call function (← argsField fields)
      | some _ => .error (.invalidExpression "'call' must name a function")
      | none => .ok (.literal (.object fields))
  | v => .ok (.literal v)

/-- The computed field under a key of an object; where the key is missing, the undefined value. -/
def ofField (key : String) : List (String × Value) → Except PipelineError Computed
  | [] => .ok (.literal .undefined)
  | (k, v) :: rest => if k = key then ofValue v else ofField key rest

/-- The computed field under a key of an object, if the key is there. -/
def ofField? (key : String) : List (String × Value) → Except PipelineError (Option Computed)
  | [] => .ok none
  | (k, v) :: rest => if k = key then do return some (← ofValue v) else ofField? key rest

/-- The cases of a choice. -/
def casesField : List (String × Value) → Except PipelineError (List (String × Computed))
  | [] => .error (.invalidExpression "switch requires a 'cases' object")
  | (k, v) :: rest =>
    if k = "cases" then
      match v with
      | .object fields => ofCases fields
      | _ => .error (.invalidExpression "switch requires a 'cases' object")
    else casesField rest

/-- The arguments of a call; without any there are none. -/
def argsField : List (String × Value) → Except PipelineError (List Computed)
  | [] => .ok []
  | (k, v) :: rest =>
    if k = "args" then
      match v with
      | .array items => ofItems items
      | v => .error (.invalidExpression ("'args' must be an array, got " ++ v.typeName))
    else argsField rest

/-- The computed fields of all fields of an object. -/
def ofCases : List (String × Value) → Except PipelineError (List (String × Computed))
  | [] => .ok []
  | (k, v) :: rest => do
    let c ← ofValue v
    let cs ← ofCases rest
    return (k, c) :: cs

/-- The computed fields of a list of values. -/
def ofItems : List Value → Except PipelineError (List Computed)
  | [] => .ok []
  | v :: rest => do
    let c ← ofValue v
    let cs ← ofItems rest
    return c :: cs

end

end FieldLang.Computed
