import FieldLang.Builtin.Error
import FieldLang.Token.Error

/-!
# Failures of Evaluation

Why an expression has no value. Syntax errors and the failures of functions pass through with their
own wording.

## Main definitions

* `EvalError`: The reasons.
* `EvalError.message`: Their wording.
-/

namespace FieldLang

/-- Why an expression has no value. -/
inductive EvalError where
  | parse (error : ParseError)
  | function (error : FunctionError)
  | undefinedVariable (name : String)
  | undefinedFunction (name : String)
  /-- A property of a nullish value is asked for. -/
  | propertyOfNullish (property target : String)
  /-- An element of a nullish value is asked for. -/
  | indexOfNullish (index target : String)
  /-- A key is used that no expression may touch. -/
  | accessDenied (key : String)
  /-- A function is registered under a reserved name. -/
  | builtinOverride (name : String)
  /-- Evaluation goes deeper than allowed. -/
  | tooDeep (limit : Nat)
  | type (reason : String)
deriving Inhabited

/-- The wording of a failure of evaluation. -/
def EvalError.message : EvalError → String
  | .parse error => error.message
  | .function error => error.message
  | .undefinedVariable name => "Undefined variable: " ++ name
  | .undefinedFunction name => "Undefined function: " ++ name
  | .propertyOfNullish property target =>
    "Cannot access property '" ++ property ++ "' of " ++ target
  | .indexOfNullish index target => "Cannot access index " ++ index ++ " of " ++ target
  | .accessDenied key => "Access to '" ++ key ++ "' is not allowed"
  | .builtinOverride name => "Cannot override built-in function: " ++ name
  | .tooDeep limit => "Maximum expression depth (" ++ toString limit ++ ") exceeded"
  | .type reason => "Type error: " ++ reason

end FieldLang
