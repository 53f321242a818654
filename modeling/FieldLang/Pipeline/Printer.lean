import FieldLang.Expr.Printer
import FieldLang.Pipeline.Basic

/-!
# Printing Pipelines

A pipeline as source text, its stages separated by bars: `items | filter(x => x > 2) | slice(0, 3)`.
Arguments that are missing are left out.

## Main definitions

* `Lambda.render`, `Stage.render`, `Pipeline.render`: The source texts.
-/

namespace FieldLang

/-- The source text of a lambda. A single parameter stands without parentheses. -/
def Lambda.render (lambda : Lambda) : String :=
  match lambda.params with
  | [param] => param ++ " => " ++ lambda.body.render
  | params => "(" ++ String.intercalate ", " params ++ ") => " ++ lambda.body.render

/-- The source texts of the arguments of a stage. -/
def Stage.renderArgs : Stage → List String
  | .reduce reducer initial => (reducer.map Lambda.render).toList ++ (initial.map Expr.render).toList
  | .slice start stop step => ([start, stop, step].filterMap id).map Expr.render
  | stage => (stage.lambda?.map Lambda.render).toList

/-- The source text of a stage. -/
def Stage.render (stage : Stage) : String :=
  stage.kind.name ++ "(" ++ String.intercalate ", " stage.renderArgs ++ ")"

/-- The source text of a pipeline. -/
def Pipeline.render (p : Pipeline) : String :=
  p.source ++ String.join (p.stages.map fun stage => " | " ++ stage.render)

end FieldLang
