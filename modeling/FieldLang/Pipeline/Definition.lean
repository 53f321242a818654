import FieldLang.Pipeline.Error
import FieldLang.Pipeline.Parser

/-!
# Pipelines as Definitions

A mapping definition gives a pipeline as nested objects. Each object names an operation in `op` and its
source in `array`: a path, or the object of the stage before. Lambdas are objects with `param` or
`params` and a `body` in source text, the bounds of a slice are source text or plain values, and the
initial value of a reduction is a plain value.

The outermost object is the last stage. It is checked for its operation first, then its source is
decoded, then its own arguments; so of several faults the one reported is the outermost unknown
operation, or else the first fault in the order of execution.

## Main definitions

* `exprOfValue`: An expression given as a value.
* `Lambda.ofValue`: A lambda given as an object.
* `Stage.ofFields`: The arguments of a stage.
* `Pipeline.ofValue`, `Pipeline.before`: A pipeline given as an object, and the part of it that a
  source denotes.
-/

namespace FieldLang

/-- An expression given as a value: a text is source, any other value stands for itself. -/
def exprOfValue : Value → Except PipelineError Expr
  | .string source => (Expr.parse source).mapError .parse
  | v => .ok (.literal v)

/-- The name of a parameter. -/
def paramOfValue : Value → Except PipelineError String
  | .string param => .ok param
  | _ => .error (.invalidOperation "lambda parameters must be strings")

namespace Lambda

/-- The parameters of a lambda: a single one, or a list. -/
def paramsOfValue (v : Value) : Except PipelineError (List String) :=
  match v.field? "param", v.field? "params" with
  | some (.string param), _ => .ok [param]
  | _, some (.array params) => params.mapM paramOfValue
  | _, _ => .error (.invalidOperation "lambda requires 'param' or 'params'")

/-- A lambda given as an object. -/
def ofValue (v : Value) : Except PipelineError Lambda := do
  let params ← paramsOfValue v
  match v.field? "body" with
  | none => throw (.invalidOperation "lambda requires a body")
  | some body => return ⟨params, ← exprOfValue body⟩

end Lambda

/-- What a field decodes to, if it is there. -/
def optionalField {α : Type} (decode : Value → Except PipelineError α) (key : String)
    (fields : List (String × Value)) : Except PipelineError (Option α) :=
  match Keyed.get? key fields with
  | none => .ok none
  | some v => do return some (← decode v)

/-- A stage of a kind with the arguments that an object holds. -/
def Stage.ofFields (kind : StageKind) (fields : List (String × Value)) :
    Except PipelineError Stage :=
  match kind with
  | .map => do return .map (← optionalField Lambda.ofValue "transform" fields)
  | .filter => do return .filter (← optionalField Lambda.ofValue "predicate" fields)
  | .flatMap => do return .flatMap (← optionalField Lambda.ofValue "transform" fields)
  | .reduce => do
    let reducer ← optionalField Lambda.ofValue "reducer" fields
    return .reduce reducer ((Keyed.get? "initial" fields).map .literal)
  | .slice => do
    let start ← optionalField exprOfValue "start" fields
    let stop ← optionalField exprOfValue "end" fields
    let step ← optionalField exprOfValue "step" fields
    return .slice start stop step

/-- The kind of the stage that an object describes. -/
def StageKind.ofFields (fields : List (String × Value)) : Except PipelineError StageKind :=
  match Keyed.get? "op" fields with
  | some (.string name) =>
    match StageKind.ofName? name with
    | some kind => .ok kind
    | none => .error (.unknownOperation name)
  | _ => .error (.invalidOperation "missing 'op'")

namespace Pipeline

/-- What a stage starts from: a path, or the pipeline before it. -/
inductive Source where
  | path (path : String)
  | pipeline (p : Pipeline)

/-- The pipeline that a stage makes of its source. -/
def Source.then (source : Source) (stage : Stage) : Pipeline :=
  match source with
  | .path source => ⟨source, stage, []⟩
  | .pipeline p => p.push stage

mutual

/-- A pipeline given as an object. -/
def ofValue : Value → Except PipelineError Pipeline
  | .object fields => do
    let kind ← StageKind.ofFields fields
    let source ← before kind fields
    let stage ← Stage.ofFields kind fields
    return source.then stage
  | v => .error (.invalidOperation ("expected an object, got " ++ v.typeName))

/-- What the first field `array` of an object denotes: a path, or the pipeline before. -/
def before (kind : StageKind) : List (String × Value) → Except PipelineError Source
  | [] => .error (.invalidOperation (kind.name ++ " requires an array"))
  | (key, v) :: rest =>
    if key = "array" then
      match v with
      | .string path => .ok (.path path)
      | .object fields => do return .pipeline (← ofValue (.object fields))
      | v =>
        .error (.invalidOperation
          (kind.name ++ " source must be a path or an operation, got " ++ v.typeName))
    else before kind rest

end

end Pipeline

end FieldLang
