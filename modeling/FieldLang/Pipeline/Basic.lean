import FieldLang.Expr.Basic

/-!
# Pipelines

A pipeline names an array by a dotted path and sends it through one or more stages. Each stage takes
the array that the stage before it produced; the first takes the one at the path.

The arguments of a stage are optional here, so that a definition which lacks one can be represented,
and be refused with a reason when it is planned or run.

## Main definitions

* `Lambda`: Parameters and a body.
* `StageKind`: The kinds of stages, with their names and descriptions.
* `Stage`: A stage with its arguments.
* `Pipeline`: A source path and its stages, the first one first.
* `Lambda.equal`, `Stage.equal`, `Pipeline.equal`: Equality, up to equality of the values in literals.
-/

namespace FieldLang

/-- A function literal: parameters and the expression that they occur in. -/
structure Lambda where
  params : List String
  body : Expr
deriving Inhabited

/-- Whether two lambdas have the same parameters and equal bodies. -/
def Lambda.equal (f g : Lambda) : Bool :=
  f.params == g.params && f.body.equal g.body

/-- The kinds of stages. -/
inductive StageKind where
  | map
  | filter
  | reduce
  | slice
  | flatMap
deriving DecidableEq

namespace StageKind

/-- All kinds of stages. -/
def all : List StageKind :=
  [.map, .filter, .reduce, .slice, .flatMap]

/-- The name of a kind. -/
def name : StageKind → String
  | .map => "map"
  | .filter => "filter"
  | .reduce => "reduce"
  | .slice => "slice"
  | .flatMap => "flatMap"

/-- The kind with a name. -/
def ofName? (name : String) : Option StageKind :=
  all.find? fun kind => kind.name == name

/-- How many parameters the lambda of a stage must have; slices have no lambda. -/
def arity? : StageKind → Option Nat
  | .reduce => some 2
  | .slice => none
  | _ => some 1

/-- What a stage does, in words. -/
def description : StageKind → String
  | .map => "Transform each element"
  | .filter => "Filter elements by predicate"
  | .reduce => "Reduce to single value"
  | .slice => "Slice elements"
  | .flatMap => "Transform and flatten each element"

/-- Every kind is found under its name. -/
theorem ofName?_name (kind : StageKind) : ofName? kind.name = some kind := by
  cases kind <;> decide

end StageKind

/-- A stage with its arguments. -/
inductive Stage where
  | map (transform : Option Lambda)
  | filter (predicate : Option Lambda)
  | reduce (reducer : Option Lambda) (initial : Option Expr)
  | slice (start stop step : Option Expr)
  | flatMap (transform : Option Lambda)
deriving Inhabited

namespace Stage

/-- The kind of a stage. -/
def kind : Stage → StageKind
  | .map _ => .map
  | .filter _ => .filter
  | .reduce .. => .reduce
  | .slice .. => .slice
  | .flatMap _ => .flatMap

/-- The lambda of a stage. -/
def lambda? : Stage → Option Lambda
  | .map transform => transform
  | .filter predicate => predicate
  | .reduce reducer _ => reducer
  | .slice .. => none
  | .flatMap transform => transform

/-- Whether two arguments are both missing, or both there and equal. -/
def equalArg {α : Type} (equal : α → α → Bool) : Option α → Option α → Bool
  | none, none => true
  | some a, some b => equal a b
  | _, _ => false

/-- Whether two stages have the same kind and equal arguments. -/
def equal : Stage → Stage → Bool
  | .map f, .map g => equalArg Lambda.equal f g
  | .filter f, .filter g => equalArg Lambda.equal f g
  | .flatMap f, .flatMap g => equalArg Lambda.equal f g
  | .reduce f a, .reduce g b => equalArg Lambda.equal f g && equalArg Expr.equal a b
  | .slice a b c, .slice d e f =>
    equalArg Expr.equal a d && equalArg Expr.equal b e && equalArg Expr.equal c f
  | _, _ => false

/-- Whether two lists of stages are equal place by place. -/
def equalLists : List Stage → List Stage → Bool
  | [], [] => true
  | s :: ss, t :: ts => s.equal t && equalLists ss ts
  | _, _ => false

end Stage

/-- A source path and the stages that its array goes through. -/
structure Pipeline where
  source : String
  first : Stage
  rest : List Stage
deriving Inhabited

namespace Pipeline

/-- The stages in the order in which they run. -/
def stages (p : Pipeline) : List Stage :=
  p.first :: p.rest

/-- Whether two pipelines have the same source and equal stages. -/
def equal (p q : Pipeline) : Bool :=
  p.source == q.source && Stage.equalLists p.stages q.stages

/-- The pipeline with a stage added at its end. -/
def push (p : Pipeline) (stage : Stage) : Pipeline :=
  { p with rest := p.rest ++ [stage] }

/-- A stage added at the end is the last to run. -/
@[simp] theorem stages_push (p : Pipeline) (stage : Stage) :
    (p.push stage).stages = p.stages ++ [stage] :=
  rfl

end Pipeline

end FieldLang
