import FieldLang.Pipeline.Run

/-!
# Computed Fields

The forms in which a mapping computes a field: an expression, a plain value, a conditional, a choice
between cases, a call of a function, or a pipeline. Conditionals, choices and calls nest.

A choice selects the case under the plain text of its subject. Where nothing is selected and nothing is
given instead, the value is undefined. The parts of a computed field are evaluated each with the full
depth of the engine.

## Main definitions

* `Computed`: The forms.
* `Computed.form`: The name of a form.
* `Computed.eval`, `Computed.evalCase`, `Computed.evalArgs`: The value of a computed field, of the case
  under a key, and of a list of arguments.
-/

namespace FieldLang

/-- A computed field. -/
inductive Computed where
  /-- An expression given as source text. -/
  | source (e : Expr)
  /-- A plain value. -/
  | literal (v : Value)
  | conditional (condition thenBranch : Computed) (elseBranch : Option Computed)
  /-- A choice between cases by the plain text of a subject. -/
  | switch (subject : Computed) (cases : List (String × Computed)) (default : Option Computed)
  | call (function : String) (args : List Computed)
  | pipeline (p : Pipeline)
deriving Inhabited

namespace Computed

/-- The name of a form. -/
def form : Computed → String
  | .source _ => "source"
  | .literal _ => "literal"
  | .conditional .. => "conditional"
  | .switch .. => "switch"
  | .call .. => "call"
  | .pipeline _ => "arrayOp"

mutual

/-- The value of a computed field. -/
def eval (engine : Engine) (scope : Scope) : Computed → Traced PipelineError Value
  | .source e => (engine.eval scope e).ofEval
  | .literal v => pure v
  | .conditional condition thenBranch elseBranch => do
    let test ← condition.eval engine scope
    if test.isTruthy then thenBranch.eval engine scope else evalOption engine scope elseBranch
  | .switch subject cases default => do
    let v ← subject.eval engine scope
    if Keyed.contains v.text cases then evalCase engine scope v.text cases
    else evalOption engine scope default
  | .call function args => do
    let values ← evalArgs engine scope args
    (engine.call function values).ofEval
  | .pipeline p => engine.runPipeline scope p

/-- The value of a part that may be missing. -/
def evalOption (engine : Engine) (scope : Scope) : Option Computed → Traced PipelineError Value
  | none => pure .undefined
  | some c => c.eval engine scope

/-- The value of the first case under a key. -/
def evalCase (engine : Engine) (scope : Scope) (key : String) :
    List (String × Computed) → Traced PipelineError Value
  | [] => pure .undefined
  | (k, c) :: rest => if k = key then c.eval engine scope else evalCase engine scope key rest

/-- The values of arguments, from left to right. -/
def evalArgs (engine : Engine) (scope : Scope) :
    List Computed → Traced PipelineError (List Value)
  | [] => pure []
  | c :: rest => do
    let v ← c.eval engine scope
    let vs ← evalArgs engine scope rest
    return v :: vs

end

end Computed

end FieldLang
