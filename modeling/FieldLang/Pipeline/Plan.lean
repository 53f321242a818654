import FieldLang.Pipeline.Error
import FieldLang.Pipeline.Parser
import FieldLang.Text.Search

/-!
# Planning Pipelines

A pipeline is checked before it is run: its path must have no empty segment, and each stage must have
its arguments and a lambda with the right number of parameters. What passes becomes a plan, which lists
what will be done in words. The first fault in the order of execution is the one reported.

## Main definitions

* `Stage.missing?`: The argument that a stage lacks.
* `Stage.check`: The check of a stage.
* `Plan`, `Pipeline.plan`: A checked pipeline with its steps.
* `Pipeline.planSource`: The plan of a source text.
* `Pipeline.validate`: The faults of a source text.
-/

namespace FieldLang

/-- The first required argument that a stage lacks, in words. -/
def Stage.missing? : Stage → Option String
  | .map none => some "a transform"
  | .flatMap none => some "a transform"
  | .filter none => some "a predicate"
  | .reduce none _ => some "a reducer"
  | .reduce (some _) none => some "an initial value"
  | .slice none _ _ => some "a start index"
  | _ => none

/-- The refusal of a stage that lacks an argument. -/
def Stage.lacks (stage : Stage) (what : String) : PipelineError :=
  .invalidOperation (stage.kind.name ++ " requires " ++ what)

/-- The refusal of a lambda with the wrong number of parameters. -/
def Stage.wrongArity (stage : Stage) (arity got : Nat) : PipelineError :=
  .invalidOperation (stage.kind.name ++ " lambda must take " ++ toString arity ++ " parameter" ++
    (if arity = 1 then "" else "s") ++ ", got " ++ toString got)

/-- Checks that a stage has its arguments and that its lambda has the right number of parameters. -/
def Stage.check (stage : Stage) : Except PipelineError Unit :=
  match stage.missing? with
  | some what => .error (stage.lacks what)
  | none =>
    match stage.lambda?, stage.kind.arity? with
    | some lambda, some arity =>
      if lambda.params.length = arity then .ok ()
      else .error (stage.wrongArity arity lambda.params.length)
    | _, _ => .ok ()

/-- A checked pipeline, with one description for each step in the order of execution. -/
structure Plan where
  pipeline : Pipeline
  source : String
  steps : List String

namespace Pipeline

/-- Checks that no segment of the path is empty. -/
def checkSource (p : Pipeline) : Except PipelineError Unit :=
  if (Text.segments p.source).any String.isEmpty then
    .error (.invalidOperation
      (p.first.kind.name ++ " has an invalid source path '" ++ p.source ++ "'"))
  else .ok ()

/-- The plan of a pipeline. -/
def plan (p : Pipeline) : Except PipelineError Plan := do
  p.checkSource
  p.stages.forM Stage.check
  return ⟨p, p.source, p.stages.map (·.kind.description)⟩

/-- The plan of a source text. -/
def planSource (source : String) : Except PipelineError Plan := do
  let p ← (parse source).mapError PipelineError.parse
  p.plan

/-- The faults of a source text; a text without faults can be run. -/
def validate (source : String) : List String :=
  match planSource source with
  | .ok _ => []
  | .error e => [e.message]

end Pipeline

end FieldLang
