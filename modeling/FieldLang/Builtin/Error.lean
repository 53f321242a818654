/-!
# Failures of Functions

Why a built-in or registered function gave no result.

## Main definitions

* `FunctionError`: The reasons.
* `FunctionError.message`: Their wording.
-/

namespace FieldLang

/-- Why a function gave no result. -/
inductive FunctionError where
  /-- The first argument is not an array. -/
  | expectedArray (function got : String)
  | argument (reason : String)
  | type (reason : String)
  | runtime (reason : String)
deriving DecidableEq, Inhabited

/-- The wording of a function's failure. -/
def FunctionError.message : FunctionError → String
  | .expectedArray function got => function ++ " requires an array, got " ++ got
  | .argument reason => "Argument error: " ++ reason
  | .type reason => "Type error: " ++ reason
  | .runtime reason => "Runtime error: " ++ reason

end FieldLang
