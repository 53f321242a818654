import FieldLang.Engine.Error

/-!
# Failures of Pipelines and Computed Fields

Why a pipeline or a computed field was refused or has no value. Syntax errors and failures of
evaluation pass through with their own wording.

## Main definitions

* `PipelineError`: The reasons.
* `PipelineError.message`: Their wording.
-/

namespace FieldLang

/-- Why a pipeline or a computed field was refused or has no value. -/
inductive PipelineError where
  | parse (error : ParseError)
  | expression (error : EvalError)
  /-- A definition lacks something or has a wrong shape. -/
  | invalidOperation (reason : String)
  | unknownOperation (name : String)
  /-- A stage is given something other than an array. -/
  | expectedArray (got : String)
  | invalidArgument (reason : String)
  /-- The definition of a computed field has a wrong shape. -/
  | invalidExpression (reason : String)
deriving Inhabited

/-- The wording of a failure. -/
def PipelineError.message : PipelineError → String
  | .parse error => error.message
  | .expression error => error.message
  | .invalidOperation reason => "Invalid array operation: " ++ reason
  | .unknownOperation name => "Unknown array operation: " ++ name
  | .expectedArray got => "Expected array, got " ++ got
  | .invalidArgument reason => "Invalid argument: " ++ reason
  | .invalidExpression reason => "Invalid compute expression: " ++ reason

end FieldLang
