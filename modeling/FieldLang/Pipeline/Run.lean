import FieldLang.Elements
import FieldLang.Engine.Eval
import FieldLang.Pipeline.Plan
import FieldLang.Pipeline.Slice

/-!
# Running Pipelines

The value that a pipeline produces in a context and a scope. The value at the source path goes
through the stages one after the other; a stage takes an array and may produce any value. The lambda
of a stage is evaluated in a scope of its own over the given one, with its parameters bound to the
element and its position; a reducer gets the accumulated value first.

Of an engine, pipelines need no more than its variables and the values of expressions. This is what
a context is, and every engine is one.

A source path is resolved without evaluating an expression: its first segment is a bound name or a
variable, every other one a field, or the length of an array. What is missing is undefined, and denied
keys are refused.

## Main definitions

* `Context`, `Engine.context`: What pipelines need of an engine.
* `Context.resolve`: The value at a source path.
* `Context.apply`: The value of a lambda on arguments.
* `Context.runStage`: The value of a stage on an array.
* `Context.runStages`: The value that stages make of a value.
* `Context.runPipeline`, `Engine.runPipeline`: The value of a pipeline.
* `Engine.runSource`: The value of a pipeline given as text, planned first.
-/

namespace FieldLang

/-- The error of an expression as an error of a pipeline, in a traced outcome. -/
def Traced.ofEval {α : Type} (x : Traced EvalError α) : Traced PipelineError α :=
  x.mapError .expression

/-- The elements of an array. -/
def Value.items : Value → Except PipelineError (List Value)
  | .array items => .ok items
  | v => .error (.expectedArray v.typeName)

/-- What pipelines need of an engine: variables, and the values of expressions in a scope. -/
structure Context where
  lookup? : String → Option Value
  evaluate : Scope → Expr → Traced EvalError Value

namespace Context

/-- The value under a segment of a path. -/
def follow (v : Value) (segment : String) : Value :=
  match v.field? segment with
  | some w => w
  | none =>
    match v with
    | .array items => if segment = "length" then .ofNat items.length else .undefined
    | _ => .undefined

/-- The value under the segments of a path, each of which must not be denied. -/
def followAll : Value → List String → Except EvalError Value
  | v, [] => .ok v
  | v, segment :: rest => do
    guardKey segment
    followAll (follow v segment) rest

/-- The bindings of parameters to arguments; of a repeated parameter the last argument counts. -/
def bindings (lambda : Lambda) (args : List Value) : Keyed Value :=
  Keyed.ofPairs (lambda.params.zip args)

/-- An argument that a stage must have. -/
def required {α : Type} (stage : Stage) (what : String) : Option α → Traced PipelineError α
  | some a => pure a
  | none => .fail (stage.lacks what)

/-- The value at a source path. -/
def resolve (context : Context) (scope : Scope) (path : String) : Except EvalError Value := do
  match Text.segments path with
  | [] => return .undefined
  | root :: rest =>
    guardKey root
    followAll (((scope.lookup? root).or (context.lookup? root)).getD .undefined) rest

/-- The array at a source path. -/
def resolveArray (context : Context) (scope : Scope) (path : String) :
    Except PipelineError (List Value) := do
  let v ← (context.resolve scope path).mapError PipelineError.expression
  v.items

/-- The value of a lambda on arguments. Arguments without a parameter are ignored. -/
def apply (context : Context) (scope : Scope) (lambda : Lambda) (args : List Value) :
    Traced PipelineError Value :=
  (context.evaluate (bindings lambda args :: scope) lambda.body).ofEval

/-- The function that a stage applies to a position and the element there. -/
def visit (context : Context) (scope : Scope) (lambda : Lambda) (position : Nat) (v : Value) :
    Traced PipelineError Value :=
  context.apply scope lambda [v, .ofNat position]

/-- The bound that an argument of a slice gives. -/
def bound (context : Context) (scope : Scope) (name : String) :
    Option Expr → Traced PipelineError (Option Int)
  | none => pure none
  | some e => do
    let v ← (context.evaluate scope e).ofEval
    Traced.ofExcept (Bounds.ofValue name v)

/-- The value of a stage on an array. -/
def runStage (context : Context) (scope : Scope) (stage : Stage) (items : List Value) :
    Traced PipelineError Value :=
  match stage with
  | .map transform => do
    let f ← required stage "a transform" transform
    return .array (← Elements.transform (context.visit scope f) 0 items)
  | .filter predicate => do
    let f ← required stage "a predicate" predicate
    return .array (← Elements.select (context.visit scope f) 0 items)
  | .flatMap transform => do
    let f ← required stage "a transform" transform
    return .array (← Elements.splice (context.visit scope f) 0 items)
  | .reduce reducer initial => do
    let f ← required stage "a reducer" reducer
    let e ← required stage "an initial value" initial
    let total ← (context.evaluate scope e).ofEval
    Elements.accumulate
      (fun total position v => context.apply scope f [total, v, .ofNat position]) total 0 items
  | .slice start stop step => do
    let e ← required stage "a start index" start
    let start ← context.bound scope "start" (some e)
    let stop ← context.bound scope "end" stop
    let step ← context.bound scope "step" step
    return .array (← Traced.ofExcept (Bounds.take ⟨start, stop, step⟩ items))

/-- The value that stages make of a value, one after the other. -/
def runStages (context : Context) (scope : Scope) : List Stage → Value → Traced PipelineError Value
  | [], v => pure v
  | stage :: rest, v => do
    let items ← Traced.ofExcept v.items
    let w ← context.runStage scope stage items
    context.runStages scope rest w

/-- The value of a pipeline. -/
def runPipeline (context : Context) (scope : Scope) (p : Pipeline) :
    Traced PipelineError Value := do
  let v ← (Traced.ofExcept (context.resolve scope p.source)).ofEval
  context.runStages scope p.stages v

end Context

namespace Engine

/-- The context that an engine is. -/
def context (engine : Engine) : Context where
  lookup? := engine.global?
  evaluate := engine.eval

/-- The array at a source path. -/
def resolveArray (engine : Engine) (scope : Scope) (path : String) :
    Except PipelineError (List Value) :=
  engine.context.resolveArray scope path

/-- The value of a lambda on arguments. -/
def apply (engine : Engine) (scope : Scope) (lambda : Lambda) (args : List Value) :
    Traced PipelineError Value :=
  engine.context.apply scope lambda args

/-- The value of a pipeline. -/
def runPipeline (engine : Engine) (scope : Scope) (p : Pipeline) : Traced PipelineError Value :=
  engine.context.runPipeline scope p

/-- The value of a planned pipeline. -/
def execute (engine : Engine) (plan : Plan) : Traced PipelineError Value :=
  engine.runPipeline [] plan.pipeline

/-- The value of a pipeline given as text, which is planned first. -/
def runSource (engine : Engine) (source : String) : Traced PipelineError Value := do
  let plan ← Traced.ofExcept (Pipeline.planSource source)
  engine.execute plan

end Engine

/-- The variables that a value holds: the fields of an object, none if it is nullish. -/
def globalsOf : Value → Except PipelineError (Keyed Value)
  | .object fields => .ok fields
  | .null => .ok []
  | .undefined => .ok []
  | v => .error (.invalidArgument ("variables must be an object, got " ++ v.typeName))

/-- The value of a pipeline given as text, over variables and without host functions. -/
def Pipeline.evaluate (source : String) (data : Value) : Except PipelineError Value := do
  let globals ← globalsOf data
  ((Engine.ofGlobals globals).runSource source).outcome

end FieldLang
